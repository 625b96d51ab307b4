import SpanMetrics.Deflate.Bits

/-!
# Canonical prefix codes

A code is given by the length of the word of every symbol; zero means that the symbol has none.
Words of one length follow each other in the order of their symbols, and the first word of a length
comes after all shorter words. Reading walks down a tree, so no table of words is searched.
-/
namespace SpanMetrics.Deflate

namespace Code

def longestWord : Nat := 15

/-- The symbols that have a word, with its length, shorter words first. -/
def inOrder (lengths : List Nat) : List (Nat × Nat) :=
  (List.range' 1 longestWord).flatMap fun length =>
    lengths.zipIdx.filterMap fun (l, symbol) => if l = length then some (symbol, l) else none

/-- Words for symbols in order: each is the number after the one before, with zero bits appended
when the words get longer. -/
def assign : (next width : Nat) → List (Nat × Nat) → List (Nat × Bits)
  | _, _, [] => []
  | next, width, (symbol, length) :: rest =>
    let word := next <<< (length - width)
    (symbol, Bits.high length word) :: assign (word + 1) length rest

def words (lengths : List Nat) : List (Nat × Bits) := assign 0 0 (inOrder lengths)

/-- A tree with the symbols at its leaves; a set bit goes to the right. -/
inductive Tree where
  | empty
  | leaf (symbol : Nat)
  | node (left right : Tree)
deriving DecidableEq, Repr, Inhabited

namespace Tree

/-- Hangs a leaf at the end of a word, unless a leaf is already there or on the way. -/
def insert? (symbol : Nat) : Bits → Tree → Option Tree
  | [], empty => some (leaf symbol)
  | false :: rest, empty => (insert? symbol rest empty).map (node · empty)
  | true :: rest, empty => (insert? symbol rest empty).map (node empty ·)
  | false :: rest, node left right => (insert? symbol rest left).map (node · right)
  | true :: rest, node left right => (insert? symbol rest right).map (node left ·)
  | _, _ => none

/-- Whether every sequence of bits leads to a leaf. -/
def complete : Tree → Bool
  | empty => false
  | leaf _ => true
  | node left right => left.complete && right.complete

/-- The symbol whose word comes first, and the bits after the word. -/
def read? : Tree → Bits → Option (Nat × Bits)
  | leaf symbol, bits => some (symbol, bits)
  | node left right, b :: rest => (if b then right else left).read? rest
  | _, _ => none

end Tree

/-- The tree of a code. Lengths that ask for more words than there are make none, and so do lengths
that leave words unused, unless no more than one symbol has a word. -/
def tree? (lengths : List Nat) : Option Tree := do
  let code := words lengths
  let tree ← code.foldlM (fun tree (symbol, word) => tree.insert? symbol word) Tree.empty
  if tree.complete || code.length ≤ 1 then return tree else none

end Code
end SpanMetrics.Deflate
