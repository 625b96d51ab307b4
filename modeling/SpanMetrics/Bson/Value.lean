import SpanMetrics.Double.Basic
import SpanMetrics.Width

/-!
# BSON values

The values that a metrics message is made of. A document is a list of keyed fields in order, and an
array is a document whose keys are the positions.
-/
namespace SpanMetrics.Bson

inductive Value where
  | double (x : Double)
  | string (s : String)
  | document (fields : List (String × Value))
  | array (fields : List (String × Value))
  | bool (b : Bool)
  | int32 (n : Int32)
  | int64 (n : Int64)
deriving Inhabited

abbrev Document := List (String × Value)

/-- The items under their positions from `start` on. -/
def keyed : (start : Nat) → List Value → Document
  | _, [] => []
  | start, item :: rest => (toString start, item) :: keyed (start + 1) rest

def Value.ofItems (items : List Value) : Value := .array (keyed 0 items)

def Value.ofTexts (texts : List String) : Value := .ofItems (texts.map .string)

/-- The byte that announces the type of a value. -/
def Value.mark : Value → UInt8
  | double _ => 0x01
  | string _ => 0x02
  | document _ => 0x03
  | array _ => 0x04
  | bool _ => 0x08
  | int32 _ => 0x10
  | int64 _ => 0x12

/-- A number in the narrower of the two integer types that holds it. -/
def Value.ofInt (n : Int) : Value :=
  if Width.fits32 n then .int32 (.ofInt n) else .int64 (.ofInt n)

/-- The value of a key: the first one, if the key is there more than once. -/
def field? (d : Document) (key : String) : Option Value := d.lookup key

def keys (d : Document) : List String := d.map Prod.fst

/-- The fields of the document in a value. -/
def Value.inner : Value → Document
  | document fields => fields
  | array fields => fields
  | _ => []

def Value.text? : Value → Option String
  | string s => some s
  | _ => none

/-- A whole number of either width. -/
def Value.int? : Value → Option Int
  | int32 n => some n.toInt
  | int64 n => some n.toInt
  | _ => none

end SpanMetrics.Bson
