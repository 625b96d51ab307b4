import SpanMetrics.Bytes.Words

/-!
# Bit streams

A compressed stream is a sequence of bits, packed into bytes from the lowest bit up. A number of
fixed width is written with its lowest bit first, a code word with its highest bit first.
-/
namespace SpanMetrics.Deflate

abbrev Bits := List Bool

namespace Bits

/-- The `width` low bits of a number, the lowest first. -/
def low : (width n : Nat) → Bits
  | 0, _ => []
  | width + 1, n => (n % 2 == 1) :: low width (n / 2)

/-- The `width` low bits of a number, the highest first. -/
def high (width n : Nat) : Bits := (low width n).reverse

/-- The number whose bits these are, the lowest first. -/
def value : Bits → Nat
  | [] => 0
  | b :: rest => b.toNat + 2 * value rest

/-- Reads a number of `width` bits, the lowest first. -/
def read? : (width : Nat) → Bits → Option (Nat × Bits)
  | 0, bits => some (0, bits)
  | _ + 1, [] => none
  | width + 1, b :: rest => (read? width rest).map fun (n, rest) => (b.toNat + 2 * n, rest)

def ofBytes (bytes : Bytes) : Bits := bytes.flatMap fun b => low 8 b.toNat

/-- Packs bits into bytes and fills the last byte with zero bits. -/
def toBytes : Bits → Bytes
  | [] => []
  | a :: b :: c :: d :: e :: f :: g :: h :: rest =>
    .ofNat (value [a, b, c, d, e, f, g, h]) :: toBytes rest
  | short => [.ofNat (value short)]

/-- What is left of a packed stream after the byte that is being read. -/
def align (bits : Bits) : Bits := bits.drop (bits.length % 8)

@[simp] theorem length_low (width n : Nat) : (low width n).length = width := by
  induction width generalizing n <;> simp [low, *]

theorem read?_append (left right : Bits) :
    read? left.length (left ++ right) = some (value left, right) := by
  induction left with
  | nil => rfl
  | cons b rest ih => simp [read?, value, ih]

end Bits
end SpanMetrics.Deflate
