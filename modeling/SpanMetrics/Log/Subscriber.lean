import SpanMetrics.Log.Event

/-!
# Subscribers

How the text of a reader comes about while the program goes on. Spans are entered and left, the
innermost one first, and an event is written as soon as it is reported. A span beyond the level of
the reader is not opened: entering it leaves the reader where it was, so what is entered inside it
belongs to the last span that was opened.
-/
namespace SpanMetrics.Log

/-- What a program reports, one after the other. -/
inductive Report where
  | enter (span : Span)
  /-- Leaves the span that was entered last and not left. -/
  | leave
  | event (level : Level) (message : Option String) (fields : List Field)
deriving DecidableEq, Repr

/-- An open span knows the one in which it was opened. -/
inductive Scope where
  | root
  | child (parent : Scope) (span : Span)
deriving DecidableEq, Repr

/-- The open spans, the outermost first. -/
def Scope.write : Scope → String
  | root => ""
  | child parent span => parent.write ++ span.render

structure Subscriber where
  limit : Level
  /-- The innermost open span. -/
  current : Scope
  /-- Where leaving leads back to, span by span. -/
  outer : List Scope
  text : String
deriving DecidableEq, Repr

namespace Subscriber

def new (limit : Level) : Subscriber := ⟨limit, .root, [], ""⟩

def enter (s : Subscriber) (span : Span) : Subscriber :=
  { s with
    current := if s.limit.shows span.level then .child s.current span else s.current
    outer := s.current :: s.outer }

def leave (s : Subscriber) : Subscriber :=
  match s.outer with
  | [] => s
  | scope :: outer => { s with current := scope, outer }

def write (s : Subscriber) (level : Level) (body : String) : Subscriber :=
  if s.limit.shows level then
    { s with
      text := s.text ++
        ("APM_METRICS | " ++ level.name ++ " | " ++ s.current.write ++ body ++ "\n") }
  else s

@[simp] theorem limit_enter (s : Subscriber) (span : Span) : (s.enter span).limit = s.limit := rfl

@[simp] theorem text_enter (s : Subscriber) (span : Span) : (s.enter span).text = s.text := rfl

@[simp] theorem limit_leave (s : Subscriber) : s.leave.limit = s.limit := by
  unfold leave
  split <;> rfl

@[simp] theorem text_leave (s : Subscriber) : s.leave.text = s.text := by
  unfold leave
  split <;> rfl

@[simp] theorem limit_write (s : Subscriber) (level : Level) (body : String) :
    (s.write level body).limit = s.limit := by
  unfold write
  split <;> rfl

def take (s : Subscriber) : Report → Subscriber
  | .enter span => s.enter span
  | .leave => s.leave
  | .event level message fields => s.write level (Event.body ⟨level, message, fields, []⟩)

def takeAll (s : Subscriber) (reports : List Report) : Subscriber := reports.foldl take s

end Subscriber

/-- The events of some reports, each in all spans that it is inside of. The spans that were
entered before are given with the innermost first. -/
def Report.events : (entered : List Span) → List Report → List Event
  | _, [] => []
  | entered, .enter span :: rest => events (span :: entered) rest
  | entered, .leave :: rest => events entered.tail rest
  | entered, .event level message fields :: rest =>
    ⟨level, message, fields, entered.reverse⟩ :: events entered rest

end SpanMetrics.Log
