import SpanMetrics.Deflate.Token

/-!
# Reading compressed data

The content of a sequence of blocks: stored, under the fixed codes, or under codes that the block
describes itself. Reading stops after the block that is marked as the last one, and gives back the
bits that follow it. Nothing is read from a stream that breaks a rule of the format.
-/
namespace SpanMetrics.Deflate

structure CodePair where
  literals : Code.Tree
  distances : Code.Tree

def CodePair.ofLengths? (literals distances : List Nat) : Option CodePair := do
  return ⟨← Code.tree? literals, ← Code.tree? distances⟩

def fixedCodes? : Option CodePair := CodePair.ofLengths? fixedLengths fixedDistances

/-- A value of the range with this place. -/
def rangeValue? (ranges : List ValueRange) (place : Nat) (bits : Bits) : Option (Nat × Bits) := do
  let range ← ranges[place]?
  let (offset, bits) ← Bits.read? range.extra bits
  return (range.base + offset, bits)

/-- What stands next in a block: a token, or its end. -/
def readToken? (codes : CodePair) (bits : Bits) : Option (Option Token × Bits) := do
  let (symbol, bits) ← codes.literals.read? bits
  if symbol < endOfBlock then return (some (.literal (.ofNat symbol)), bits)
  else if symbol = endOfBlock then return (none, bits)
  else
    let (length, bits) ← rangeValue? lengthRanges (symbol - firstLength) bits
    let (place, bits) ← codes.distances.read? bits
    let (distance, bits) ← rangeValue? distanceRanges place bits
    return (some (.copy length distance), bits)

/-- Reads tokens up to the end of the block. Every token takes a bit, so as many steps as there are
bits are enough. -/
def readTokens? (codes : CodePair) : (steps : Nat) → (past : Bytes) → Bits → Option (Bytes × Bits)
  | 0, _, _ => none
  | steps + 1, past, bits => do
    match ← readToken? codes bits with
    | (none, bits) => return (past, bits)
    | (some token, bits) => readTokens? codes steps (← token.onto? past) bits

def readStored? : (count : Nat) → (past : Bytes) → Bits → Option (Bytes × Bits)
  | 0, past, bits => some (past, bits)
  | count + 1, past, bits => do
    let (byte, bits) ← Bits.read? 8 bits
    readStored? count (.ofNat byte :: past) bits

/-- The order in which a block gives the word lengths of the code for its word lengths. -/
def lengthOrder : List Nat := [16, 17, 18, 0, 8, 7, 9, 6, 10, 5, 11, 4, 12, 3, 13, 2, 14, 1, 15]

/-- Three bits for each of the first symbols of `lengthOrder`. -/
def readShortLengths? : (order : List Nat) → (count : Nat) → Bits →
    Option (List (Nat × Nat) × Bits)
  | symbol :: order, count + 1, bits => do
    let (length, bits) ← Bits.read? 3 bits
    let (rest, bits) ← readShortLengths? order count bits
    return ((symbol, length) :: rest, bits)
  | _, _, bits => some ([], bits)

/-- Word lengths up to a wanted number, with runs written as repetitions; they are held in
reverse. -/
def readLengths? (tree : Code.Tree) (wanted : Nat) : (steps : Nat) → (held : List Nat) → Bits →
    Option (List Nat × Bits)
  | 0, _, _ => none
  | steps + 1, held, bits =>
    if held.length = wanted then some (held.reverse, bits)
    else if wanted < held.length then none
    else do
      let (symbol, bits) ← tree.read? bits
      if symbol < 16 then readLengths? tree wanted steps (symbol :: held) bits
      else if symbol = 16 then
        let (more, bits) ← Bits.read? 2 bits
        let last ← held.head?
        readLengths? tree wanted steps (List.replicate (more + 3) last ++ held) bits
      else
        let (width, least) := if symbol = 17 then (3, 3) else (7, 11)
        let (more, bits) ← Bits.read? width bits
        readLengths? tree wanted steps (List.replicate (more + least) 0 ++ held) bits

/-- The codes that a block describes. -/
def readCodes? (bits : Bits) : Option (CodePair × Bits) := do
  let (literals, bits) ← Bits.read? 5 bits
  let (distances, bits) ← Bits.read? 5 bits
  let (short, bits) ← Bits.read? 4 bits
  let (lengths, bits) ← readShortLengths? lengthOrder (short + 4) bits
  let tree ← Code.tree? ((List.range 19).map fun symbol => (lengths.lookup symbol).getD 0)
  let wanted := literals + 257 + (distances + 1)
  let (lengths, bits) ← readLengths? tree wanted (wanted + 1) [] bits
  return (← CodePair.ofLengths? (lengths.take (literals + 257)) (lengths.drop (literals + 257)),
    bits)

/-- One block: whether it is the last one, the bytes so far in reverse, and the bits after it. -/
def readBlock? (past : Bytes) (bits : Bits) : Option (Bool × Bytes × Bits) := do
  let (final, bits) ← Bits.read? 1 bits
  let (kind, bits) ← Bits.read? 2 bits
  let (past, bits) ← match kind with
    | 0 => do
      let (size, bits) ← Bits.read? 16 (Bits.align bits)
      let (complement, bits) ← Bits.read? 16 bits
      if size + complement = 65535 then readStored? size past bits else none
    | 1 => do readTokens? (← fixedCodes?) bits.length past bits
    | 2 => do
      let (codes, bits) ← readCodes? bits
      readTokens? codes bits.length past bits
    | _ => none
  return (final == 1, past, bits)

def readBlocks? : (steps : Nat) → (past : Bytes) → Bits → Option (Bytes × Bits)
  | 0, _, _ => none
  | steps + 1, past, bits => do
    let (final, past, bits) ← readBlock? past bits
    if final then return (past, bits) else readBlocks? steps past bits

/-- The content of the blocks at the start of a stream, and the bits after them. -/
def inflate? (bits : Bits) : Option (Bytes × Bits) :=
  (readBlocks? bits.length [] bits).map fun (past, rest) => (past.reverse, rest)

end SpanMetrics.Deflate
