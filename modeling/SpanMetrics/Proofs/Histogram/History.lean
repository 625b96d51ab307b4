import SpanMetrics.Histogram.History
import SpanMetrics.Proofs.Aggregation.Steps
import SpanMetrics.Proofs.Histogram.Gather
import SpanMetrics.Proofs.Table.Values

/-!
# A table and its history

What a table holds is known from the latencies since the last drain: under every name
that was used one histogram, gathered from the latencies of this name. It is there
even if all of them were refused, and then it is empty.
-/
namespace SpanMetrics

theorem Precision.val_ofRequest (requested : Nat) :
    (ofRequest requested).val = if requested ≤ 5 then requested else 2 := by
  rw [ofRequest, ofNat?]
  by_cases h : requested < 6
  · rw [dif_pos h, if_pos (Nat.le_of_lt_succ h)]
    rfl
  · rw [dif_neg h, if_neg (by omega)]
    rfl

namespace HistogramTable

section Calls

variable (calls : List Call) (name : String)

theorem latencies_concat_record (other : String) (d : Duration) :
    latencies name (calls ++ [.record other d]) =
      latencies name calls ++ if other = name then [d] else [] := by
  have hc : cycle (calls ++ [.record other d]) = cycle calls ++ [.record other d] := by
    simp [cycle]
  rw [latencies, hc, List.filterMap_append, ← latencies]
  by_cases h : other = name <;> simp [Call.latency?, h]

theorem latencies_concat_drain : latencies name (calls ++ [.drain]) = [] := by
  simp [latencies, cycle]

theorem performAll_cons (t : HistogramTable) (call : Call) :
    t.performAll (call :: calls) =
      ⟨((t.perform call).value.performAll calls).value,
        (t.perform call).events ++ ((t.perform call).value.performAll calls).events⟩ := rfl

theorem value_performAll_append (t : HistogramTable) (more : List Call) :
    (t.performAll (calls ++ more)).value =
      ((t.performAll calls).value.performAll more).value := by
  induction calls generalizing t with
  | nil => rfl
  | cons call calls ih => exact ih (t.perform call).value

end Calls

/-- A new table is empty, with a precision that histograms can have. -/
theorem value_new (requested : Nat) : (new requested).value = ⟨.ofRequest requested, .empty⟩ := by
  unfold new Precision.ofRequest
  cases Precision.ofNat? requested <;> rfl

/-- The table holds the latencies since the last drain, by name. -/
structure Holds (p : Precision) (calls : List Call) (t : HistogramTable) : Prop where
  precision : t.precision = p
  entries : ∀ name, t.entries.get? name =
    if latencies name calls = [] then none
    else some ⟨name, .gather p (latencies name calls)⟩

theorem holds_empty (p : Precision) : Holds p [] ⟨p, .empty⟩ := ⟨rfl, fun _ => rfl⟩

variable {p : Precision} {calls : List Call} {t : HistogramTable}

/-- A name without latencies has an empty entry, and the table does not have it. -/
theorem Holds.entry (h : Holds p calls t) (name : String) :
    t.entry name = ⟨name, .gather p (latencies name calls)⟩ := by
  rw [HistogramTable.entry, h.entries, h.precision]
  split
  · next hn =>
    rw [hn]
    rfl
  · rfl

theorem Holds.perform (h : Holds p calls t) (call : Call) :
    Holds p (calls ++ [call]) (t.perform call).value := by
  cases call with
  | record name d =>
    refine ⟨(precision_record t name d).trans h.precision, fun key => ?_⟩
    show (t.record name d).value.entries.get? key = _
    rw [get?_record, latencies_concat_record, h.entry, h.entries]
    by_cases hk : key = name
    · subst hk
      rw [if_pos rfl, if_pos rfl, if_neg (List.append_ne_nil_of_right_ne_nil _ (by simp)),
        Histogram.gather_append_singleton]
    · rw [if_neg hk, if_neg (Ne.symm hk), List.append_nil]
  | drain =>
    refine ⟨h.precision, fun key => ?_⟩
    rw [latencies_concat_drain, if_pos rfl]
    rfl

theorem Holds.performAll (h : Holds p calls t) (more : List Call) :
    Holds p (calls ++ more) (t.performAll more).value := by
  induction more generalizing t calls with
  | nil =>
    rw [List.append_nil]
    exact h
  | cons call more ih =>
    have hstep := ih (h.perform call)
    rwa [List.append_assoc] at hstep

theorem holds_performAll (requested : Nat) (calls : List Call) :
    Holds (.ofRequest requested) calls ((new requested).value.performAll calls).value := by
  rw [value_new]
  exact (holds_empty _).performAll calls

/-- An entry that is drained was used, and was gathered under its own name. -/
theorem Holds.of_mem_drain (h : Holds p calls t) {e : HistogramEntry} (he : e ∈ t.drain.1) :
    latencies e.name calls ≠ [] ∧ e.histogram = .gather p (latencies e.name calls) := by
  obtain ⟨name, hg⟩ := (Table.mem_values_iff _).1 he
  rw [h.entries] at hg
  split at hg
  · cases hg
  · next hn =>
    obtain rfl := Option.some.inj hg
    exact ⟨hn, rfl⟩

end HistogramTable
end SpanMetrics
