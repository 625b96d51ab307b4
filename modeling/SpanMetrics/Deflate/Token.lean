import SpanMetrics.Deflate.Code

/-!
# Tokens

A block of compressed data is a sequence of tokens: a byte, or a run copied from what was written
before. Lengths and distances are grouped in ranges, and each is written as the symbol of its range
followed by its place in the range. `Token.onto?` says what a token stands for.
-/
namespace SpanMetrics.Deflate

inductive Token where
  | literal (byte : UInt8)
  | copy (length distance : Nat)
deriving DecidableEq, Repr

/-- The values from `base` on that `extra` bits tell apart. -/
structure ValueRange where
  base : Nat
  extra : Nat
deriving DecidableEq, Repr

def lengthRanges : List ValueRange :=
  [⟨3, 0⟩, ⟨4, 0⟩, ⟨5, 0⟩, ⟨6, 0⟩, ⟨7, 0⟩, ⟨8, 0⟩, ⟨9, 0⟩, ⟨10, 0⟩, ⟨11, 1⟩, ⟨13, 1⟩, ⟨15, 1⟩,
    ⟨17, 1⟩, ⟨19, 2⟩, ⟨23, 2⟩, ⟨27, 2⟩, ⟨31, 2⟩, ⟨35, 3⟩, ⟨43, 3⟩, ⟨51, 3⟩, ⟨59, 3⟩, ⟨67, 4⟩,
    ⟨83, 4⟩, ⟨99, 4⟩, ⟨115, 4⟩, ⟨131, 5⟩, ⟨163, 5⟩, ⟨195, 5⟩, ⟨227, 5⟩, ⟨258, 0⟩]

def distanceRanges : List ValueRange :=
  [⟨1, 0⟩, ⟨2, 0⟩, ⟨3, 0⟩, ⟨4, 0⟩, ⟨5, 1⟩, ⟨7, 1⟩, ⟨9, 2⟩, ⟨13, 2⟩, ⟨17, 3⟩, ⟨25, 3⟩, ⟨33, 4⟩,
    ⟨49, 4⟩, ⟨65, 5⟩, ⟨97, 5⟩, ⟨129, 6⟩, ⟨193, 6⟩, ⟨257, 7⟩, ⟨385, 7⟩, ⟨513, 8⟩, ⟨769, 8⟩,
    ⟨1025, 9⟩, ⟨1537, 9⟩, ⟨2049, 10⟩, ⟨3073, 10⟩, ⟨4097, 11⟩, ⟨6145, 11⟩, ⟨8193, 12⟩,
    ⟨12289, 12⟩, ⟨16385, 13⟩, ⟨24577, 13⟩]

def longestCopy : Nat := 258

/-- How far back a token reaches. -/
def window : Nat := 32768

/-- The last range that starts at or before a value: its place and the range. -/
def locate (ranges : List ValueRange) (value : Nat) : Nat × ValueRange :=
  let place := (ranges.takeWhile (·.base ≤ value)).length - 1
  (place, ranges.getD place ⟨0, 0⟩)

def endOfBlock : Nat := 256

def firstLength : Nat := 257

/-- Word lengths of the fixed code for bytes and lengths. -/
def fixedLengths : List Nat :=
  List.replicate 144 8 ++ List.replicate 112 9 ++ List.replicate 24 7 ++ List.replicate 8 8

def fixedDistances : List Nat := List.replicate 32 5

def fixedWords : Array Bits :=
  let code := Code.words fixedLengths
  ((List.range fixedLengths.length).map fun symbol => (code.lookup symbol).getD []).toArray

def fixedWord (symbol : Nat) : Bits := fixedWords.getD symbol []

/-- A value as the word of its range and its place in the range. -/
def rangeBits (ranges : List ValueRange) (word : Nat → Bits) (value : Nat) : Bits :=
  let (place, range) := locate ranges value
  word place ++ Bits.low range.extra (value - range.base)

/-- The token under the fixed codes. -/
def Token.bits : Token → Bits
  | literal byte => fixedWord byte.toNat
  | copy length distance =>
    rangeBits lengthRanges (fun place => fixedWord (firstLength + place)) length ++
      rangeBits distanceRanges (Bits.high 5) distance

/-- Appends a run that starts `distance` bytes back; the bytes are held in reverse. A run may reach
into the bytes that it appends. -/
def copyBack? : (length distance : Nat) → Bytes → Option Bytes
  | 0, _, past => some past
  | length + 1, distance, past => do
    let byte ← if distance = 0 then none else past[distance - 1]?
    copyBack? length distance (byte :: past)

/-- The bytes so far, in reverse, after one more token. -/
def Token.onto? (past : Bytes) : Token → Option Bytes
  | literal byte => some (byte :: past)
  | copy length distance => copyBack? length distance past

end SpanMetrics.Deflate
