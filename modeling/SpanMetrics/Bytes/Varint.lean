import SpanMetrics.Bytes.Words

/-!
# Variable-length integers

Signed numbers of 64 bits in one to nine bytes. Zig-zag order puts numbers of small size first,
whatever their sign; seven bits go into each of the first eight bytes, the lowest first, with a set
high bit as long as more follow, and a ninth byte holds eight bits.
-/
namespace SpanMetrics.Bytes.Varint

/-- The place of a number in the order 0, -1, 1, -2, … -/
def zigzag (n : Int) : Nat := if 0 ≤ n then 2 * n.toNat else 2 * (-n).toNat - 1

def unzigzag (n : Nat) : Int := if n % 2 = 0 then (n / 2 : Nat) else -((n / 2 : Nat) : Int) - 1

theorem unzigzag_zigzag (n : Int) : unzigzag (zigzag n) = n := by
  simp only [zigzag, unzigzag]
  split <;> split <;> omega

/-- Seven bits a byte for at most `short` bytes, then one whole byte. -/
def encodeGroups : (short n : Nat) → Bytes
  | 0, n => [.ofNat n]
  | short + 1, n =>
    if n < 128 then [.ofNat n] else .ofNat (n % 128 + 128) :: encodeGroups short (n / 128)

def encode (n : Int) : Bytes := encodeGroups 8 (zigzag n)

/-- The number at the start of the bytes, and the bytes after it. -/
def decodeGroups? : (short : Nat) → Bytes → Option (Nat × Bytes)
  | _, [] => none
  | 0, b :: rest => some (b.toNat, rest)
  | short + 1, b :: rest =>
    if b.toNat < 128 then some (b.toNat, rest)
    else (decodeGroups? short rest).map fun (n, rest) => (b.toNat - 128 + 128 * n, rest)

def decode? (bytes : Bytes) : Option (Int × Bytes) :=
  (decodeGroups? 8 bytes).map fun (n, rest) => (unzigzag n, rest)

end SpanMetrics.Bytes.Varint
