import SpanMetrics.Histogram.Table

/-!
# Histories of a histogram table

What can be done with a table, as data, and the cycles that a history falls into: every drain
closes one, and the calls after the last drain are the cycle that is still open.
-/
namespace SpanMetrics.HistogramTable

inductive Call where
  | record (name : String) (d : Duration)
  | drain
deriving DecidableEq, Repr

/-- The latency that a call records under a name. -/
def Call.latency? (name : String) : Call → Option Duration
  | record other d => if other = name then some d else none
  | drain => none

/-- The table after a call. What a drain gives out is `drain.1` of the table before it. -/
def perform (t : HistogramTable) : Call → Logged HistogramTable
  | .record name d => t.record name d
  | .drain => return t.drain.2

/-- Performs a history. -/
def performAll : HistogramTable → List Call → Logged HistogramTable
  | t, [] => return t
  | t, call :: rest => do
    let t ← t.perform call
    performAll t rest

/-- The calls since the last drain. -/
def cycle (calls : List Call) : List Call := (calls.reverse.takeWhile (· ≠ .drain)).reverse

/-- The latencies recorded under a name since the last drain, in order. -/
def latencies (name : String) (calls : List Call) : List Duration :=
  (cycle calls).filterMap (Call.latency? name)

end SpanMetrics.HistogramTable
