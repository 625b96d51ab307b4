import SpanMetrics.Bson.Value
import SpanMetrics.Text.Lines
import SpanMetrics.Text.Quoted

/-!
# Writing BSON

Documents start with their length in bytes and end with a zero byte; a field is its type, its key
up to a zero byte, and its value. A key with a NUL character cannot be written, and the first such
key in the order of writing is what a failure tells. Text values may hold any character.
-/
namespace SpanMetrics.Bson

/-- A text up to a zero byte. -/
def cstring (s : String) : Bytes := Text.utf8 s ++ [0]

/-- A document's fields with the length before and the zero byte after them. -/
def enclose (fields : Bytes) : Bytes := Bytes.littleEndian 4 (fields.length + 5) ++ fields ++ [0]

mutual

/-- The bytes of a value, without its type. -/
def Value.bytes : Value → Bytes
  | .double x => Bytes.littleEndian 8 x.bits.toNat
  | .string s => Bytes.littleEndian 4 ((Text.utf8 s).length + 1) ++ cstring s
  | .document fields => enclose (fieldsBytes fields)
  | .array fields => enclose (fieldsBytes fields)
  | .bool b => [if b then 1 else 0]
  | .int32 n => Bytes.littleEndian 4 n.toUInt32.toNat
  | .int64 n => Bytes.littleEndian 8 n.toUInt64.toNat

def fieldBytes : String × Value → Bytes
  | (key, value) => value.mark :: cstring key ++ value.bytes

def fieldsBytes : List (String × Value) → Bytes
  | [] => []
  | field :: rest => fieldBytes field ++ fieldsBytes rest

end

def keyOk (key : String) : Bool := !key.toList.contains '\x00'

mutual

/-- The first key in a value that cannot be written. -/
def Value.badKey? : Value → Option String
  | .document fields => badKeyOfFields? fields
  | .array fields => badKeyOfFields? fields
  | _ => none

def badKeyOfField? : String × Value → Option String
  | (key, value) => if keyOk key then value.badKey? else some key

def badKeyOfFields? : List (String × Value) → Option String
  | [] => none
  | field :: rest => (badKeyOfField? field).or (badKeyOfFields? rest)

end

inductive WriteError where
  /-- A key holds a NUL character. -/
  | nulInKey (key : String)
deriving DecidableEq, Repr

def WriteError.message : WriteError → String
  | nulInKey key => "cstrings cannot contain null bytes: " ++ Text.quoted key

def write (d : Document) : Except WriteError Bytes :=
  match badKeyOfFields? d with
  | some key => .error (.nulInKey key)
  | none => .ok (enclose (fieldsBytes d))

end SpanMetrics.Bson
