import SpanMetrics.Width

/-!
# Bucket layout

How latencies, in whole microseconds, fall into buckets at a precision of `p` significant figures.
Values below `2 ^ (halfBits p + 1)` have a bucket each. Above, every power of two is divided into
`2 ^ halfBits p` buckets, and since that is at least `10 ^ p`, a bucket is narrow against the
values in it. `bucket` gives back the range of values of a slot.
-/
namespace SpanMetrics

/-- Significant figures, none to five. -/
abbrev Precision := Fin 6

namespace Precision

def standard : Precision := 2

def ofNat? (n : Nat) : Option Precision := if h : n < 6 then some ⟨n, h⟩ else none

end Precision

namespace Histogram

/-- Smallest latency told apart from zero. -/
def lowest : Nat := 1

/-- One hour in microseconds, the highest latency the layout is announced for. -/
def highest : Nat := 3600000000

/-- Values from here on have no bucket. The buckets that an hour needs are only complete at the
next power of two. -/
def ceiling : Nat := Width.limit32

/-- The number of buckets in each power of two, as an exponent: with twice as many of them the
values below `2 * 10 ^ p` are told apart one by one. -/
def halfBits (p : Precision) : Nat := Nat.log2 (2 * Nat.pow 10 p.val - 1)

/-- How far a value is shifted to bring it among the values told apart one by one. -/
def scale (p : Precision) (value : Nat) : Nat := Nat.log2 value - halfBits p

/-- The place of a value's bucket. -/
def slot (p : Precision) (value : Nat) : Nat :=
  (scale p value <<< halfBits p) + (value >>> scale p value)

/-- How far the values of a slot are shifted. -/
def slotScale (p : Precision) (s : Nat) : Nat := (s >>> halfBits p) - 1

/-- First and last value of a slot. -/
def bucket (p : Precision) (s : Nat) : Nat × Nat :=
  let shift := slotScale p s
  let first := (s - (shift <<< halfBits p)) <<< shift
  (first, first + (1 <<< shift) - 1)

example : List.map halfBits [0, 1, 2, 3, 4, 5] = [0, 4, 7, 10, 14, 17] := by decide +kernel
example : slot 2 255 = 255 ∧ slot 2 256 = 256 ∧ slot 2 257 = 256 := by decide +kernel
example : bucket 2 256 = (256, 257) := by decide +kernel

end Histogram
end SpanMetrics
