import SpanMetrics.Deflate.Token

/-!
# Finding repetitions

The tokens of a content, found from left to right. At each position the nearest of the longest
earlier occurrences counts; the very first byte is never the start of one. A repetition is held
back for one position: if a longer one starts there, the first byte is written as it is instead.
-/
namespace SpanMetrics.Deflate

/-- Length of the common beginning of two sequences, as far as a token reaches. -/
def sharedLength : (limit : Nat) → Bytes → Bytes → Nat
  | limit + 1, a :: as, b :: bs => if a = b then sharedLength limit as bs + 1 else 0
  | _, _, _ => 0

structure Repetition where
  length : Nat
  distance : Nat
deriving DecidableEq, Repr

/-- Goes through earlier positions from some distance on. Nothing is longer than a token reaches,
so the search ends there. -/
def searchFrom (here : Bytes) (distance best : Nat) (found : Option Repetition) :
    List Bytes → Option Repetition
  | [] => found
  | earlier :: rest =>
    if window < distance ∨ longestCopy ≤ best then found
    else
      let length := sharedLength longestCopy earlier here
      if best < length then searchFrom here (distance + 1) length (some ⟨length, distance⟩) rest
      else searchFrom here (distance + 1) best found rest

/-- The nearest of the longest occurrences of the beginning of `here` that are longer than `best`.
`past` holds what follows each earlier position, the nearest first. -/
def findRepetition (past : List Bytes) (here : Bytes) (best : Nat) : Option Repetition :=
  searchFrom here 1 best none past

/-- What the scan owes when it comes to a position. -/
inductive Pending where
  | nothing
  /-- A repetition that starts at the byte before. -/
  | held (byte : UInt8) (repetition : Repetition)
  /-- So many more bytes belong to a repetition already written. -/
  | covered (count : Nat)
deriving DecidableEq, Repr

/-- Tokens for the rest of a content. Repetitions shorter than three bytes do not count. -/
def scan (past : List Bytes) : Pending → Bytes → List Token
  | .held _ r, [] => [.copy r.length r.distance]
  | _, [] => []
  | .covered (count + 1), byte :: rest =>
    scan ((byte :: rest) :: past) (.covered count) rest
  | .held before r, byte :: rest =>
    match findRepetition past (byte :: rest) r.length with
    | some longer =>
      .literal before :: scan ((byte :: rest) :: past) (.held byte longer) rest
    | none =>
      .copy r.length r.distance :: scan ((byte :: rest) :: past) (.covered (r.length - 2)) rest
  | _, byte :: rest =>
    match findRepetition past (byte :: rest) 2 with
    | some found => scan ((byte :: rest) :: past) (.held byte found) rest
    | none => .literal byte :: scan ((byte :: rest) :: past) .nothing rest

def tokens : Bytes → List Token
  | [] => []
  | byte :: rest => .literal byte :: scan [] .nothing rest

end SpanMetrics.Deflate
