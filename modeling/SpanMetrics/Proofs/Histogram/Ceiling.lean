import SpanMetrics.Proofs.Histogram.Creation
import SpanMetrics.Proofs.Histogram.History

/-!
# Where latencies are refused

The layout is made for an hour, and its slots reach further. Which latencies a table
counts is decided by the slots alone, so those between an hour and the next power of
two are counted as well, at every precision. Beyond it every latency is refused and
logged.
-/
namespace SpanMetrics

/-- What makes no difference for the members of a list makes none for their number. -/
theorem countP_eq_countP_iff_of_imp {α : Type} {p q : α → Bool} {items : List α}
    (h : ∀ a ∈ items, p a → q a) :
    items.countP q = items.countP p ↔ ∀ a ∈ items, q a → p a := by
  induction items with
  | nil => simp
  | cons a items ih =>
    obtain ⟨ha, hrest⟩ := List.forall_mem_cons.1 h
    have hle : items.countP p ≤ items.countP q := List.countP_mono_left hrest
    rw [List.forall_mem_cons, ← ih hrest, List.countP_cons, List.countP_cons]
    by_cases hp : p a
    · simp [hp, ha hp]
    · by_cases hq : q a
      · simp [hp, hq]
        omega
      · simp [hp, hq]

/-- What is logged of a refusal. -/
theorem HistogramError.refusal_eq (micros : Nat) :
    "Failed to record histogram: " ++ (HistogramError.record micros).message =
      "Failed to record histogram: value to large to record: " ++ toString micros := by
  have ht : "Failed to record histogram: " ++ "value to large to record: " =
      "Failed to record histogram: value to large to record: " := rfl
  rw [← ht, String.append_assoc]
  rfl

namespace Duration

theorem micros_eq (d : Duration) : d.micros = min (d.nanos / 1000) (2 ^ 64 - 1) := rfl

/-- A latency has a bucket exactly if its whole microseconds are below `2 ^ 32`, though
they are cut off at 64 bits. -/
theorem micros_lt_ceiling_iff (d : Duration) :
    d.micros < Histogram.ceiling ↔ d.nanos / 1000 < 2 ^ 32 := by
  have hc : Histogram.ceiling = 2 ^ 32 := rfl
  rw [micros_eq, hc]
  omega

end Duration

namespace HistogramTable

/-- A refusal is logged with the latency in whole microseconds. -/
theorem events_record_eq (t : HistogramTable) (name : String) (d : Duration) :
    (t.record name d).events =
      if d.nanos / 1000 < 2 ^ 32 then []
      else [.say .error ("Failed to record histogram: value to large to record: " ++
        toString (min (d.nanos / 1000) (2 ^ 64 - 1)))] := by
  rw [events_record, HistogramError.refusal_eq, ← d.micros_eq]
  exact if_congr d.micros_lt_ceiling_iff rfl rfl

/-- The samples under a name are the latencies recorded under it since the last drain
whose whole microseconds are below `2 ^ 32`, at every precision. These are the latencies
of at most an hour exactly if none lies in between. The others are refused and logged.
A latency is counted by its slot being one of the layout, which comes to the same. -/
theorem total_entry_iff (requested : Nat) (calls : List Call) (name : String) :
    let t := ((new requested).value.performAll calls).value
    let ds := latencies name calls
    t.precision.val = (if requested ≤ 5 then requested else 2) ∧
    t.entries.get? name = (if ds = [] then none else some (t.entry name)) ∧
    (t.entry name).histogram.total = ds.countP (·.nanos / 1000 < 2 ^ 32) ∧
    ((t.entry name).histogram.total = ds.countP (·.nanos / 1000 ≤ 3600000000) ↔
      ∀ d ∈ ds, d.nanos / 1000 < 2 ^ 32 → d.nanos / 1000 ≤ 3600000000) ∧
    (∀ d : Duration, (t.record name d).events =
      if d.nanos / 1000 < 2 ^ 32 then []
      else [.say .error ("Failed to record histogram: value to large to record: " ++
        toString (min (d.nanos / 1000) (2 ^ 64 - 1)))]) ∧
    (∀ d : Duration, t.recordStepwise name d = t.record name d) ∧
    ∀ micros, Histogram.slot t.precision micros < Histogram.slots 1 3600000000 t.precision ↔
      micros < 2 ^ 32 := by
  intro t ds
  have h : Holds (.ofRequest requested) calls t := holds_performAll requested calls
  have htotal : (t.entry name).histogram.total = ds.countP (·.nanos / 1000 < 2 ^ 32) := by
    rw [h.entry, Histogram.total_gather]
    simp only [Duration.micros_lt_ceiling_iff]
    rfl
  refine ⟨?_, ?_, htotal, ?_, t.events_record_eq name, t.recordStepwise_eq name,
    Histogram.slot_lt_slots_iff t.precision⟩
  · rw [h.precision, Precision.val_ofRequest]
  · rw [h.entries, h.entry]
  · rw [htotal, countP_eq_countP_iff_of_imp]
    · simp only [decide_eq_true_eq]
    · intro d _ hd
      rw [decide_eq_true_eq] at hd ⊢
      omega

/-- One microsecond more than an hour is counted. -/
theorem latency_beyond_hour_counted :
    ¬∀ (requested : Nat) (calls : List Call) (name : String),
      (((new requested).value.performAll calls).value.entry name).histogram.total =
        (latencies name calls).countP (·.nanos / 1000 ≤ 3600000000) := by
  intro h
  have htotal := h 2 [.record "a" ⟨3600000001000⟩] "a"
  exact absurd htotal (by decide +kernel)

end HistogramTable
end SpanMetrics
