import SpanMetrics.Deflate.Inflate

/-!
# Zlib streams

Two header bytes, compressed blocks, and the Adler-32 check of the content with its highest byte
first. `inflate?` accepts a sequence of bytes only if it is one complete stream with nothing after
it.
-/
namespace SpanMetrics.Zlib

/-- The largest prime below `2 ^ 16`. -/
def adlerModulus : Nat := 65521

/-- Two running sums, of the bytes and of the first sum, both modulo a prime. -/
def adler32 (content : Bytes) : Nat :=
  let (a, b) := content.foldl (fun (a, b) byte =>
    let a := (a + byte.toNat) % adlerModulus
    (a, (b + a) % adlerModulus)) (1, 0)
  b * 65536 + a

/-- A window of 32 KiB and the highest level of compression. -/
def header : Bytes := [0x78, 0xDA]

/-- Whether two bytes announce compressed blocks without a preset dictionary. -/
def headerOk (method flags : UInt8) : Bool :=
  method.toNat % 16 = 8 && method.toNat / 16 ≤ 7 &&
    (method.toNat * 256 + flags.toNat) % 31 = 0 && flags.toNat / 32 % 2 = 0

/-- The content of a complete stream. -/
def inflate? : Bytes → Option Bytes
  | method :: flags :: body => do
    if !headerOk method flags then none
    let (content, rest) ← Deflate.inflate? (Deflate.Bits.ofBytes body)
    let trailer := Deflate.Bits.toBytes (Deflate.Bits.align rest)
    if trailer = Bytes.bigEndian 4 (adler32 content) then return content else none
  | _ => none

end SpanMetrics.Zlib
