/-!
# Plain counters

Totals of a cycle that are kept without tags: what became of the events in the sending queue, and
what the sampler decided. Additions wrap at 64 bits; the largest queue length only ever rises.
-/
namespace SpanMetrics

/-- What is reported of the event queue. -/
inductive QueueChange where
  | sent (n : Int64)
  | overflowed (n : Int64)
  | failed (n : Int64)
  | events (n : Int64)
  /-- The queue was seen at this length. -/
  | length (n : Int64)
deriving DecidableEq, Repr

structure QueueTotals where
  sent : Int64
  overflowed : Int64
  failed : Int64
  events : Int64
  largest : Int64
deriving DecidableEq, Repr

namespace QueueTotals

def zero : QueueTotals := ⟨0, 0, 0, 0, 0⟩

instance : Inhabited QueueTotals := ⟨zero⟩

/-- Adds to a total, or raises the largest length if it is lower. -/
def apply (q : QueueTotals) : QueueChange → QueueTotals
  | .sent n => { q with sent := q.sent + n }
  | .overflowed n => { q with overflowed := q.overflowed + n }
  | .failed n => { q with failed := q.failed + n }
  | .events n => { q with events := q.events + n }
  | .length n => if q.largest < n then { q with largest := n } else q

end QueueTotals

/-- Decisions of the sampler. -/
inductive SamplerDecision where
  /-- A request came to the sampler. -/
  | requested
  /-- The sample rate chose the request. -/
  | sampled
  /-- The token bucket was empty. -/
  | limited
  /-- The request was traced. -/
  | traced
  /-- The request was traced because its caller was. -/
  | through
deriving DecidableEq, Repr

structure SamplerTotals where
  requested : Int64
  sampled : Int64
  limited : Int64
  traced : Int64
  through : Int64
deriving DecidableEq, Repr

namespace SamplerTotals

def zero : SamplerTotals := ⟨0, 0, 0, 0, 0⟩

instance : Inhabited SamplerTotals := ⟨zero⟩

def count (t : SamplerTotals) : SamplerDecision → SamplerTotals
  | .requested => { t with requested := t.requested + 1 }
  | .sampled => { t with sampled := t.sampled + 1 }
  | .limited => { t with limited := t.limited + 1 }
  | .traced => { t with traced := t.traced + 1 }
  | .through => { t with through := t.through + 1 }

end SamplerTotals
end SpanMetrics
