import SpanMetrics.Aggregation.Operation
import SpanMetrics.Flusher.Basic

/-!
# Calls of a flusher

What happens to a flusher from outside, as data: the program does something with the state, or it
asks for a flush. The answer of a flush is its snapshot, if there is one.
-/
namespace SpanMetrics

inductive FlusherCall where
  | operate (op : Operation)
  | flush (circumstances : Circumstances)

namespace FlusherCall

/-- Whether a request is recorded. -/
def isRecord : FlusherCall → Bool
  | operate (.recordSpan _) => true
  | _ => false

end FlusherCall

namespace Flusher

/-- Only a flush has an answer that is kept. -/
def call (f : Flusher) (transport : Transport) :
    FlusherCall → Logged (Option (Option Snapshot) × Flusher)
  | .operate op => do
    let (_, state) ← f.state.perform op
    return (none, { f with state })
  | .flush circumstances => do
    let (answer, f) ← f.flush transport circumstances
    return (some answer, f)

/-- Goes through calls in order and gives the answers of all flushes. -/
def callAll (transport : Transport) :
    Flusher → List FlusherCall → Logged (List (Option Snapshot) × Flusher)
  | f, [] => return ([], f)
  | f, call :: rest => do
    let (answer, f) ← f.call transport call
    let (answers, f) ← callAll transport f rest
    return (answer.toList ++ answers, f)

end Flusher
end SpanMetrics
