import SpanMetrics.Proofs.Aggregation.Spans

/-!
# A drain forgets

What a history leaves behind in a state after the next drain: the capacity that it
staged last, and nothing else. The precision is settled when a state is made and no
operation changes it. A drained state is therefore a new one, and nothing that is done
with it can tell whether there was a cycle before.
-/
namespace SpanMetrics.Aggregation

theorem precision_perform (s : Aggregation) (op : Operation) :
    (s.perform op).value.2.histograms.precision = s.histograms.precision := by
  cases op with
  | recordSpan span =>
    rw [perform_recordSpan, histograms_recordSpan, precision_recordClassified,
      HistogramTable.precision_record]
  | recordLatency name duration => exact s.histograms.precision_record name duration
  | _ => rfl

theorem precision_performAll (s : Aggregation) (ops : List Operation) :
    (s.performAll ops).value.2.histograms.precision = s.histograms.precision := by
  induction ops generalizing s with
  | nil => rfl
  | cons op ops ih => rw [performAll_cons, ih, precision_perform]

/-- A drain with nothing after the one before takes nothing. -/
theorem drain_drain (s : Aggregation) :
    s.drain.value.2.drain = ⟨(.empty, s.drain.value.2), [drainNotice .empty]⟩ := rfl

/-- Whatever was done with a state, once it is drained every further history has the
answers, the cycles and the log that it has on a new state with the same precision and
the capacity that was staged last. -/
theorem isolated (requested capacity : Nat) (history later : List Operation) :
    let s := ((new requested capacity).value.performAll history).value.2
    let staged := (history.filterMap Operation.capacity?).getLastD capacity
    let fresh := new s.histograms.precision.val staged
    s.drain.value.2.performAll later = fresh.value.performAll later ∧
      fresh.events = [] ∧
      s.histograms.precision = .ofRequest requested ∧
      s.drain.value.2.drain = ⟨(.empty, s.drain.value.2), [drainNotice .empty]⟩ := by
  intro s staged fresh
  have hstaged : s.registry.staged = staged := by
    rw [staged_performAll, value_new]
    rfl
  have hprecision : s.histograms.precision = .ofRequest requested := by
    rw [precision_performAll, value_new]
  have hfresh : fresh = ⟨s.drain.value.2, []⟩ := by
    rw [drain_next, hstaged]
    exact new_val s.histograms.precision staged
  exact ⟨by rw [hfresh], by rw [hfresh], hprecision, s.drain_drain⟩

end SpanMetrics.Aggregation
