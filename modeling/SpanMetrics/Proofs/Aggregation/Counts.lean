import SpanMetrics.Proofs.Histogram.Gather
import SpanMetrics.Proofs.Response.FanOut

/-!
# Counting by transaction

What entries tell of one transaction: the count of those whose only tag it is, and the
samples of those that have its name. A response adds one to the count of its
transaction, and a latency that has a bucket adds one sample to its name, whatever
else is in the table.
-/
namespace SpanMetrics

/-- The count of a transaction without further tags. -/
def Counter.countOf (transaction : String) (entries : List Counter) : Int :=
  ((entries.filter (·.tags = .ofList [⟨"TransactionName", transaction⟩])).map (·.count)).sum

/-- The samples under a name. -/
def HistogramEntry.samplesOf (name : String) (entries : List HistogramEntry) : Nat :=
  ((entries.filter (·.name = name)).map (·.histogram.total)).sum

theorem Counter.countOf_append (transaction : String) (entries more : List Counter) :
    countOf transaction (entries ++ more) =
      countOf transaction entries + countOf transaction more := by
  simp [countOf]

theorem HistogramEntry.samplesOf_append (name : String) (entries more : List HistogramEntry) :
    samplesOf name (entries ++ more) = samplesOf name entries + samplesOf name more := by
  simp [samplesOf]

/-- A table counts the responses of a transaction. -/
theorem CounterTable.countOf_recordResponses (transaction : String) (rs : List ResponseTime) :
    Counter.countOf transaction (recordResponses .empty rs).values =
      rs.countP (·.transaction = transaction) := by
  have hf : rs.filter (.overall transaction ∈ ·.series) =
      rs.filter (·.transaction = transaction) := by
    simp only [ResponseTime.overall_mem_series, eq_comm]
  have hv := filter_values_recordResponses rs (a := .overall transaction) rfl
  rw [hf] at hv
  rw [Counter.countOf, List.countP_eq_length_filter]
  refine (congrArg (fun entries : List Counter => (entries.map (·.count)).sum) hv).trans ?_
  cases rs.filter (·.transaction = transaction) with
  | nil => rfl
  | cons r rest => exact Int.add_zero _

/-- Only responses were recorded in the table. -/
def CounterTable.OfResponses (t : CounterTable) : Prop :=
  ∃ rs : List ResponseTime, t = recordResponses .empty rs

theorem CounterTable.OfResponses.record {t : CounterTable} (h : t.OfResponses)
    (r : ResponseTime) : (t.recordResponse r).OfResponses := by
  obtain ⟨rs, rfl⟩ := h
  exact ⟨rs ++ [r], (recordResponses_concat _ rs r).symm⟩

/-- A response adds one to the count of its transaction. -/
theorem CounterTable.OfResponses.countOf_record {t : CounterTable} (h : t.OfResponses)
    (r : ResponseTime) (transaction : String) :
    Counter.countOf transaction (t.recordResponse r).values =
      Counter.countOf transaction t.values + if r.transaction = transaction then 1 else 0 := by
  obtain ⟨rs, rfl⟩ := h
  rw [← recordResponses_concat, countOf_recordResponses, countOf_recordResponses,
    List.countP_append, List.countP_singleton]
  by_cases hr : r.transaction = transaction <;> simp [hr]

namespace HistogramTable

/-- Every entry has the name under which it is found. -/
def Named (t : HistogramTable) : Prop := ∀ key e, t.entries.get? key = some e → e.name = key

theorem named_empty (p : Precision) : Named ⟨p, .empty⟩ := fun _ _ h => nomatch h

variable {t : HistogramTable}

theorem Named.entry (h : t.Named) (name : String) : (t.entry name).name = name := by
  rw [HistogramTable.entry]
  cases hg : t.entries.get? name with
  | none => rfl
  | some e => exact h name e hg

theorem Named.record (h : t.Named) (name : String) (d : Duration) :
    (t.record name d).value.Named := by
  intro key e he
  rw [get?_record] at he
  split at he
  · next hk =>
    obtain rfl := Option.some.inj he
    exact (h.entry name).trans hk.symm
  · exact h key e he

/-- What an entry adds to the samples under a name. -/
def share (name : String) (e : HistogramEntry) : Int :=
  if e.name = name then e.histogram.total else 0

theorem samplesOf_eq_sum (name : String) (entries : List HistogramEntry) :
    (HistogramEntry.samplesOf name entries : Int) = (entries.map (share name)).sum := by
  induction entries with
  | nil => rfl
  | cons e rest ih =>
    rw [List.map_cons, List.sum_cons, ← ih]
    by_cases h : e.name = name <;> simp [HistogramEntry.samplesOf, share, h]

/-- A latency adds a sample to its name, if it has a bucket. -/
theorem Named.samplesOf_record (h : t.Named) (name : String) (d : Duration) (other : String) :
    HistogramEntry.samplesOf other (t.record name d).value.entries.values =
      HistogramEntry.samplesOf other t.entries.values +
        if name = other ∧ d.micros < Histogram.ceiling then 1 else 0 := by
  -- an entry that is not there yet counts as an empty one
  have hold : ((t.entries.get? name).map (share other)).getD 0 = share other (t.entry name) := by
    rw [HistogramTable.entry]
    cases t.entries.get? name with
    | none => simp [share, Histogram.total, Histogram.empty]
    | some e => rfl
  have hnew : share other
      { t.entry name with histogram := (t.entry name).histogram.observe d } =
        share other (t.entry name) +
          if name = other ∧ d.micros < Histogram.ceiling then 1 else 0 := by
    simp only [share, h.entry, Histogram.total_observe]
    by_cases hn : name = other <;> simp [hn]
  have hs : (HistogramEntry.samplesOf other (t.record name d).value.entries.values : Int) +
      share other (t.entry name) =
        HistogramEntry.samplesOf other t.entries.values + share other
          { t.entry name with histogram := (t.entry name).histogram.observe d } := by
    rw [samplesOf_eq_sum, samplesOf_eq_sum, value_record, put, ← hold]
    exact Table.sum_values_alter t.entries name _ (share other)
  by_cases hc : name = other ∧ d.micros < Histogram.ceiling
  · rw [hnew, if_pos hc] at hs
    rw [if_pos hc]
    omega
  · rw [hnew, if_neg hc] at hs
    rw [if_neg hc]
    omega

end HistogramTable
end SpanMetrics
