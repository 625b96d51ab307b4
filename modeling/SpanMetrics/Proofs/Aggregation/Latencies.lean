import SpanMetrics.Proofs.Aggregation.Steps
import SpanMetrics.Proofs.Histogram.History

/-!
# Latencies of a history

What a history does to the histograms, as calls of their table. A request makes one or
two of them, which depends on the registry before it; a drain of the whole state drains
the histograms as well. So the histograms of a state are what is known of a table and
its history.
-/
namespace SpanMetrics.Aggregation

open HistogramTable (Call)

/-- The call for the histogram of a request besides the overall one. -/
def classifiedCalls (c : Classification) (d : Duration) : List Call :=
  match c with
  | .named name => [.record name d]
  | _ => []

/-- The calls of the histogram table that an operation makes, in order. -/
def histogramCalls (s : Aggregation) : Operation → List Call
  | .recordSpan span =>
    .record "" span.duration :: classifiedCalls (s.classification span) span.duration
  | .recordLatency name d => [.record name d]
  | .drainHistograms | .drain => [.drain]
  | _ => []

/-- The calls of the histogram table that a history makes, in order. -/
def histogramCallsAll : Aggregation → List Operation → List Call
  | _, [] => []
  | s, op :: ops => s.histogramCalls op ++ (s.perform op).value.2.histogramCallsAll ops

theorem recordClassified_eq (t : HistogramTable) (c : Classification) (d : Duration) :
    recordClassified t c d = (t.performAll (classifiedCalls c d)).value := by
  cases c <;> rfl

theorem histograms_perform (s : Aggregation) (op : Operation) :
    (s.perform op).value.2.histograms = (s.histograms.performAll (s.histogramCalls op)).value := by
  cases op with
  | recordSpan span =>
    rw [perform_recordSpan, histograms_recordSpan, recordClassified_eq]
    rfl
  | _ => rfl

theorem histograms_performAll (s : Aggregation) (ops : List Operation) :
    (s.performAll ops).value.2.histograms =
      (s.histograms.performAll (s.histogramCallsAll ops)).value := by
  induction ops generalizing s with
  | nil => rfl
  | cons op ops ih =>
    rw [performAll_cons, ih, histograms_perform, histogramCallsAll,
      HistogramTable.value_performAll_append]

/-- The histograms of a state hold the latencies of its history. -/
theorem holds_histograms (requested capacity : Nat) (ops : List Operation) :
    HistogramTable.Holds (.ofRequest requested)
      ((new requested capacity).value.histogramCallsAll ops)
      ((new requested capacity).value.performAll ops).value.2.histograms := by
  have hnew : (new requested capacity).value.histograms = ⟨.ofRequest requested, .empty⟩ := by
    rw [value_new]
  rw [histograms_performAll, hnew]
  exact (HistogramTable.holds_empty _).performAll _

end SpanMetrics.Aggregation
