import SpanMetrics.Aggregation.Cycle

/-!
# Operations on the state

Everything that can be done with an aggregation state, as data: an operation gives an answer and
the state after it. A history is a list of operations, and the log of a history is the log of its
operations one after the other.
-/
namespace SpanMetrics

inductive Operation where
  | recordSpan (span : CompletedSpan)
  | recordCounter (update : CounterUpdate)
  | recordResponse (response : ResponseTime)
  | recordLatency (name : String) (duration : Duration)
  | offer (name : String)
  | stage (capacity : Nat)
  | classify (transaction path : String)
  | change (change : QueueChange)
  | count (decision : SamplerDecision)
  | peekQueue
  | drainCounters
  | drainHistograms
  | drainQueue
  | drainSampler
  | resetRegistry
  | drain
deriving DecidableEq

inductive Answer where
  | done
  | flag (b : Bool)
  | classification (c : Classification)
  | counters (entries : List Counter)
  | histograms (entries : List HistogramEntry)
  | queue (totals : QueueTotals)
  | sampler (totals : SamplerTotals)
  | cycle (c : Cycle)
deriving DecidableEq

namespace Aggregation

def perform (s : Aggregation) : Operation → Logged (Answer × Aggregation)
  | .recordSpan span => return (.done, ← s.recordSpan span)
  | .recordCounter update => return (.done, s.recordCounter update)
  | .recordResponse response => return (.done, s.recordResponse response)
  | .recordLatency name duration => return (.done, ← s.recordLatency name duration)
  | .offer name => do
    let (taken, registry) ← s.registry.offer name
    return (.flag taken, { s with registry })
  | .stage capacity => return (.done, { s with registry := s.registry.stage capacity })
  | .classify transaction path => do
    let (c, s) ← s.classify transaction path
    return (.classification c, s)
  | .change change => return (.done, { s with queue := s.queue.apply change })
  | .count decision => return (.done, { s with sampler := s.sampler.count decision })
  | .peekQueue => return (.queue s.queue, s)
  | .drainCounters => return (.counters s.drainCounters.1, s.drainCounters.2)
  | .drainHistograms => return (.histograms s.drainHistograms.1, s.drainHistograms.2)
  | .drainQueue => return (.queue s.drainQueue.1, s.drainQueue.2)
  | .drainSampler => return (.sampler s.drainSampler.1, s.drainSampler.2)
  | .resetRegistry => return (.flag s.resetRegistry.1, s.resetRegistry.2)
  | .drain => do
    let (cycle, s) ← s.drain
    return (.cycle cycle, s)

/-- Performs a history and gives the answers in order. -/
def performAll : Aggregation → List Operation → Logged (List Answer × Aggregation)
  | s, [] => return ([], s)
  | s, op :: rest => do
    let (answer, s) ← s.perform op
    let (answers, s) ← performAll s rest
    return (answer :: answers, s)

end Aggregation
end SpanMetrics
