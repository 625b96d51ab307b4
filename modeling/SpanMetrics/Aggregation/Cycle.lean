import SpanMetrics.Aggregation.State

/-!
# Cycles

A drain closes the current cycle: it takes out what was gathered and leaves the state empty, with
the capacity that was staged. It goes through the parts of the state one after the other, and each
step takes one part alone.
-/
namespace SpanMetrics

structure Cycle where
  counters : List Counter
  histograms : List HistogramEntry
  queue : QueueTotals
  sampler : SamplerTotals
  /-- Whether the registry refused a name. -/
  overflow : Bool
deriving DecidableEq

namespace Aggregation

def drainCounters (s : Aggregation) : List Counter × Aggregation :=
  (s.counters.values, { s with counters := .empty })

def drainHistograms (s : Aggregation) : List HistogramEntry × Aggregation :=
  (s.histograms.drain.1, { s with histograms := s.histograms.drain.2 })

def drainQueue (s : Aggregation) : QueueTotals × Aggregation := (s.queue, { s with queue := .zero })

def drainSampler (s : Aggregation) : SamplerTotals × Aggregation :=
  (s.sampler, { s with sampler := .zero })

def resetRegistry (s : Aggregation) : Bool × Aggregation :=
  (s.registry.reset.1, { s with registry := s.registry.reset.2 })

def drainNotice (c : Cycle) : Log.Event :=
  .say .debug ("Drained " ++ toString c.counters.length ++ " measurements and " ++
    toString c.histograms.length ++ " histograms, transaction overflow: " ++
    (if c.overflow then "true" else "false"))

def drain (s : Aggregation) : Logged (Cycle × Aggregation) := do
  let (counters, s) := s.drainCounters
  let (histograms, s) := s.drainHistograms
  let (queue, s) := s.drainQueue
  let (sampler, s) := s.drainSampler
  let (overflow, s) := s.resetRegistry
  let cycle : Cycle := ⟨counters, histograms, queue, sampler, overflow⟩
  Logged.emit (drainNotice cycle)
  return (cycle, s)

end Aggregation

namespace Cycle

/-- A cycle in which nothing happened. -/
def empty : Cycle := ⟨[], [], .zero, .zero, false⟩

/-- The same cycle with its series in the order of their keys and its histograms in the order of
their names. A drain promises no order. -/
def sorted (c : Cycle) : Cycle :=
  { c with
    counters := c.counters.mergeSort (fun a b => decide (a.key ≤ b.key))
    histograms := c.histograms.mergeSort (fun a b => decide (a.name ≤ b.name)) }

end Cycle
end SpanMetrics
