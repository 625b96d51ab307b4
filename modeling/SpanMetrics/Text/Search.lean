import SpanMetrics.Text.Lines

/-!
# Finding and cutting

Searches in a text and the cuts that go with them. Blank is the white space of the Unicode property
`White_Space`; core's `Char.isWhitespace` knows the ASCII part of it only, and
`isBlank_of_isWhitespace` says that the table covers it.

A text is cut where one of its characters begins. `cutBytes` goes by the UTF-8 form: it counts the
characters up to the cut, takes the byte at which the next one begins, and drops the bytes from
there on. `cut` says the same of characters.
-/
namespace SpanMetrics.Text

/-- Whether a sequence of characters occurs in another. -/
def occursIn (needle : List Char) : List Char → Bool
  | [] => needle.isEmpty
  | c :: rest => needle.isPrefixOf (c :: rest) || occursIn needle rest

def holds (s needle : String) : Bool := occursIn needle.toList s.toList

/-- What follows the last occurrence of a character; the whole text if it does not occur. -/
def afterLast (c : Char) (s : String) : String :=
  .ofList (s.toList.reverse.takeWhile (· != c)).reverse

/-- A text without the occurrences of a character at its two ends. -/
def strip (c : Char) (s : String) : String :=
  .ofList ((s.toList.dropWhile (· == c)).reverse.dropWhile (· == c)).reverse

/-- The texts between the occurrences of a character. -/
def splitAt (c : Char) (s : String) : List String := (s.toList.splitOn c).map .ofList

/-! ### Cuts -/

def cut (count : Nat) (s : String) : String := .ofList (s.toList.take count)

/-- The bytes at which characters begin, the first of them at `place`. -/
def starts (place : Nat) : List Char → List Nat
  | [] => []
  | c :: rest => place :: starts (place + c.utf8Size) rest

/-- The bytes before the character with `count` others before it, all bytes if there is none. -/
def cutBytes (count : Nat) (s : String) : Bytes :=
  match (starts 0 s.toList)[count]? with
  | some place => (utf8 s).take place
  | none => utf8 s

example : cutBytes 1 "é€" = [0xC3, 0xA9] := by decide +kernel

/-! ### Blank characters -/

/-- First and last code points of the ranges of `White_Space`. -/
def blankRanges : List (Nat × Nat) :=
  [(0x09, 0x0D), (0x20, 0x20), (0x85, 0x85), (0xA0, 0xA0), (0x1680, 0x1680), (0x2000, 0x200A),
    (0x2028, 0x2029), (0x202F, 0x202F), (0x205F, 0x205F), (0x3000, 0x3000)]

def isBlank (c : Char) : Bool :=
  blankRanges.any fun r => r.1 ≤ c.toNat && c.toNat ≤ r.2

theorem isBlank_of_isWhitespace {c : Char} (h : c.isWhitespace) : isBlank c := by
  simp only [Char.isWhitespace, Bool.or_eq_true, decide_eq_true_eq] at h
  rcases h with ((rfl | rfl) | rfl) | rfl <;> decide

/-- The text without the blank characters at its two ends. -/
def trimChars (cs : List Char) : List Char :=
  ((cs.dropWhile isBlank).reverse.dropWhile isBlank).reverse

def trim (s : String) : String := .ofList (trimChars s.toList)

/-- The longest runs of characters that are not blank, in order. -/
def words (s : String) : List String :=
  ((s.toList.splitOnP isBlank).filter (!·.isEmpty)).map .ofList

end SpanMetrics.Text
