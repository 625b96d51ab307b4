import SpanMetrics.Aggregation.Totals
import SpanMetrics.Histogram.Table
import SpanMetrics.Transaction.Classification

/-!
# The aggregation state

All that is gathered between two drains, and the ways in which it grows. A request is recorded in
four steps, each of which touches one part of the state: the overall histogram, the registry, the
histogram of the transaction if it has one, and the response time series.
-/
namespace SpanMetrics

structure CompletedSpan where
  /-- Name given to the request, empty if it was given none. -/
  transaction : String
  /-- Escaped path of the request, used if there is no name. -/
  path : String
  duration : Duration
  status : UInt16
  method : String
  failed : Bool
deriving DecidableEq, Repr

/-- The response time of a request, in nanoseconds, under a transaction. -/
def CompletedSpan.response (span : CompletedSpan) (transaction : String) : ResponseTime :=
  ⟨transaction, span.method, span.status, span.failed, .ofNat span.duration.nanos⟩

structure Aggregation where
  registry : Registry
  counters : CounterTable
  histograms : HistogramTable
  queue : QueueTotals
  sampler : SamplerTotals

namespace Aggregation

def new (precision capacity : Nat) : Logged Aggregation := do
  let histograms ← HistogramTable.new precision
  return ⟨.new capacity, .empty, histograms, .zero, .zero⟩

def recordLatency (s : Aggregation) (name : String) (d : Duration) : Logged Aggregation := do
  return { s with histograms := ← s.histograms.record name d }

def classify (s : Aggregation) (transaction path : String) :
    Logged (Classification × Aggregation) := do
  let (c, registry) ← s.registry.classify transaction path
  return (c, { s with registry })

/-- Only a transaction with a name of its own has a histogram. -/
def recordNamed (s : Aggregation) (c : Classification) (d : Duration) : Logged Aggregation :=
  match c with
  | .named name => s.recordLatency name d
  | _ => return s

def recordCounter (s : Aggregation) (u : CounterUpdate) : Aggregation :=
  { s with counters := s.counters.record u }

def recordResponse (s : Aggregation) (r : ResponseTime) : Aggregation :=
  { s with counters := s.counters.recordResponse r }

def recordSpan (s : Aggregation) (span : CompletedSpan) : Logged Aggregation := do
  let s ← s.recordLatency "" span.duration
  let (c, s) ← s.classify span.transaction span.path
  let s ← s.recordNamed c span.duration
  return s.recordResponse (span.response c.transaction)

end Aggregation
end SpanMetrics
