/-!
# Bytes

Byte sequences and the numbers of fixed width in them, in both byte orders. A number that does not
fit its width is cut to the low bytes.
-/
namespace SpanMetrics

abbrev Bytes := List UInt8

namespace Bytes

/-- The `width` low bytes of a number, the lowest first. -/
def littleEndian : (width n : Nat) → Bytes
  | 0, _ => []
  | width + 1, n => UInt8.ofNat n :: littleEndian width (n / 256)

def ofLittleEndian : Bytes → Nat
  | [] => 0
  | b :: rest => b.toNat + 256 * ofLittleEndian rest

/-- The `width` low bytes of a number, the highest first. -/
def bigEndian (width n : Nat) : Bytes := (littleEndian width n).reverse

def ofBigEndian (bytes : Bytes) : Nat := ofLittleEndian bytes.reverse

@[simp] theorem length_littleEndian (width n : Nat) : (littleEndian width n).length = width := by
  induction width generalizing n <;> simp [littleEndian, *]

@[simp] theorem length_bigEndian (width n : Nat) : (bigEndian width n).length = width := by
  simp [bigEndian]

/-- The first `count` bytes and the rest, if there are so many. -/
def split? (count : Nat) (bytes : Bytes) : Option (Bytes × Bytes) :=
  if count ≤ bytes.length then some (bytes.splitAt count) else none

theorem split?_append (left right : Bytes) :
    split? left.length (left ++ right) = some (left, right) := by
  simp [split?]

def readLittle? (width : Nat) (bytes : Bytes) : Option (Nat × Bytes) :=
  (split? width bytes).map fun (word, rest) => (ofLittleEndian word, rest)

def readBig? (width : Nat) (bytes : Bytes) : Option (Nat × Bytes) :=
  (split? width bytes).map fun (word, rest) => (ofBigEndian word, rest)

/-- Two lower-case hexadecimal digits. -/
def hexByte (b : UInt8) : List Char := [Nat.digitChar (b.toNat / 16), Nat.digitChar (b.toNat % 16)]

end Bytes
end SpanMetrics
