import SpanMetrics.Text.Quoted

/-!
# Log events

An event has a level, a message, fields and the spans in which it happened. A reader asks for the
events up to some verbosity; an event or a span beyond it is left out, on its own and without any
effect on the rest of the line.
-/
namespace SpanMetrics.Log

inductive Level where
  | error | warn | info | debug | trace
deriving DecidableEq, Repr, Inhabited

namespace Level

/-- Errors are the least verbose level and traces the most verbose. -/
def verbosity : Level → Nat
  | error => 0
  | warn => 1
  | info => 2
  | debug => 3
  | trace => 4

def name : Level → String
  | error => "ERROR"
  | warn => "WARN"
  | info => "INFO"
  | debug => "DEBUG"
  | trace => "TRACE"

/-- A reader at level `limit` sees the levels that are at most as verbose. -/
def shows (limit level : Level) : Bool := level.verbosity ≤ limit.verbosity

end Level

inductive FieldValue where
  | number (n : Int)
  | flag (b : Bool)
  | text (s : String)
deriving DecidableEq, Repr

/-- Numbers and flags are written plainly and texts quoted. -/
def FieldValue.render : FieldValue → String
  | number n => toString n
  | flag b => if b then "true" else "false"
  | text s => Text.quoted s

structure Field where
  name : String
  value : FieldValue
deriving DecidableEq, Repr

def Field.render (f : Field) : String := f.name ++ "=" ++ f.value.render

/-- Work in progress that the events inside it are reported with. -/
structure Span where
  level : Level
  name : String
  fields : List Field
deriving DecidableEq, Repr

/-- The fields stand in braces, which are left out where there are none. -/
def Span.render (s : Span) : String :=
  if s.fields.isEmpty then s.name ++ ": "
  else s.name ++ "\x7b" ++ " ".intercalate (s.fields.map Field.render) ++ "\x7d: "

structure Event where
  level : Level
  message : Option String
  fields : List Field
  /-- The spans around the event, the outermost first. -/
  scope : List Span
deriving DecidableEq, Repr

namespace Event

def say (level : Level) (message : String) : Event := ⟨level, some message, [], []⟩

/-- The event seen from outside a span. -/
def within (span : Span) (e : Event) : Event := { e with scope := span :: e.scope }

/-- The message and then the fields, separated by one space. -/
def body (e : Event) : String :=
  " ".intercalate (e.message.toList ++ e.fields.map Field.render)

/-- The line of an event for a reader at level `limit`. -/
def line (limit : Level) (e : Event) : String :=
  "APM_METRICS | " ++ e.level.name ++ " | " ++
    String.join ((e.scope.filter (limit.shows ·.level)).map Span.render) ++ e.body ++ "\n"

end Event

/-- All that a reader at level `limit` sees of a sequence of events. -/
def render (limit : Level) (events : List Event) : String :=
  String.join ((events.filter (limit.shows ·.level)).map (Event.line limit))

end SpanMetrics.Log
