import SpanMetrics.Bson.Value
import SpanMetrics.Text.Lines

/-!
# Reading BSON

Reads the types of value that a metrics message has. The lengths have to be right to the byte, and
texts have to be UTF-8; the keys of an array are kept as they stand.
-/
namespace SpanMetrics.Bson

/-- A text up to a zero byte, and the bytes after it. -/
def readCString? (bytes : Bytes) : Option (String × Bytes) := do
  let rest := bytes.dropWhile (· != 0)
  if rest.isEmpty then none
  else return (← Text.ofUtf8? (bytes.takeWhile (· != 0)), rest.drop 1)

/-- A text with its length before and a zero byte after it. -/
def readString? (bytes : Bytes) : Option (String × Bytes) := do
  let (length, bytes) ← Bytes.readLittle? 4 bytes
  if length = 0 then none
  else
    let (text, bytes) ← Bytes.split? (length - 1) bytes
    if bytes.head? = some 0 then return (← Text.ofUtf8? text, bytes.drop 1) else none

/-- The fields of a document and the bytes after it. -/
def enclosed? (bytes : Bytes) : Option (Bytes × Bytes) := do
  let (length, _) ← Bytes.readLittle? 4 bytes
  if length < 5 then none
  else
    let (whole, rest) ← Bytes.split? length bytes
    let fields := (whole.drop 4).dropLast
    if whole.getLast? = some 0 then return (fields, rest) else none

/-- Reads fields to the end of the bytes. A field takes more than one byte, so as many steps as
there are bytes are enough. -/
def readFields? : (steps : Nat) → Bytes → Option Document
  | _, [] => some []
  | 0, _ => none
  | steps + 1, mark :: bytes => do
    let (key, bytes) ← readCString? bytes
    let (value, bytes) ← match mark with
      | 0x01 => do
        let (n, bytes) ← Bytes.readLittle? 8 bytes
        some (Value.double ⟨.ofNat n⟩, bytes)
      | 0x02 => do
        let (s, bytes) ← readString? bytes
        some (Value.string s, bytes)
      | 0x03 => do
        let (inner, bytes) ← enclosed? bytes
        some (Value.document (← readFields? steps inner), bytes)
      | 0x04 => do
        let (inner, bytes) ← enclosed? bytes
        some (Value.array (← readFields? steps inner), bytes)
      | 0x08 => match bytes with
        | 0 :: rest => some (Value.bool false, rest)
        | 1 :: rest => some (Value.bool true, rest)
        | _ => none
      | 0x10 => do
        let (n, bytes) ← Bytes.readLittle? 4 bytes
        some (Value.int32 (.ofNat n), bytes)
      | 0x12 => do
        let (n, bytes) ← Bytes.readLittle? 8 bytes
        some (Value.int64 (.ofNat n), bytes)
      | _ => none
    return (key, value) :: (← readFields? steps bytes)

/-- The document that the bytes are, to the last one. -/
def read? (bytes : Bytes) : Option Document := do
  let (fields, rest) ← enclosed? bytes
  if rest.isEmpty then readFields? fields.length fields else none

end SpanMetrics.Bson
