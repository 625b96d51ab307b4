import SpanMetrics.Message.Snapshot

/-!
# Cycles and their messages

A state that is fed by requests and from which a message is made now and then. A message closes the
cycle before it, so the requests after the last message are not in any of them. The histograms in
the messages are compressed in any way.
-/
namespace SpanMetrics

inductive Activity where
  | record (span : CompletedSpan)
  | stage (capacity : Nat)
  | assemble (context : MessageContext)

namespace Activity

def span? : Activity → Option CompletedSpan
  | record span => some span
  | _ => none

def isAssemble : Activity → Bool
  | assemble _ => true
  | _ => false

/-- The requests of some activities, in order. -/
def spans (activities : List Activity) : List CompletedSpan := activities.filterMap span?

/-- The requests before the last message. -/
def closedSpans (activities : List Activity) : List CompletedSpan :=
  spans (activities.reverse.dropWhile (!·.isAssemble)).reverse

end Activity

namespace Aggregation

variable (compress : Bytes → Bytes)

/-- Only the making of a message has a result. -/
def act (s : Aggregation) :
    Activity → Logged (Option (Except SnapshotError Snapshot) × Aggregation)
  | .record span => return (none, ← s.recordSpan span)
  | .stage capacity => return (none, { s with registry := s.registry.stage capacity })
  | .assemble context => do
    let (result, s) ← s.assembleWith compress context
    return (some result, s)

/-- Goes through activities in order and gives the results of all messages. -/
def actAll :
    Aggregation → List Activity → Logged (List (Except SnapshotError Snapshot) × Aggregation)
  | s, [] => return ([], s)
  | s, activity :: rest => do
    let (result, s) ← s.act compress activity
    let (results, s) ← actAll s rest
    return (result.toList ++ results, s)

end Aggregation
end SpanMetrics
