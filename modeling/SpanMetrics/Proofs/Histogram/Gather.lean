import Mathlib
import SpanMetrics.Histogram.Table

/-!
# Latencies gathered in a histogram

What a histogram counts after any number of latencies: in each slot the latencies
that fall into its bucket. A latency beyond the last bucket changes nothing. The
counts of all slots together with the precision determine a histogram.
-/
namespace SpanMetrics

namespace Histogram

/-- The count of a slot among the slots in use. -/
def countOf (counts : List SlotCount) (s : Nat) : Nat :=
  ((counts.find? (·.slot = s)).map (·.count)).getD 0

theorem countOf_cons (c : SlotCount) (counts : List SlotCount) (s : Nat) :
    countOf (c :: counts) s = if c.slot = s then c.count else countOf counts s := by
  by_cases h : c.slot = s <;> simp [countOf, h]

theorem countOf_eq_zero {counts : List SlotCount} {s : Nat} (h : ∀ c ∈ counts, c.slot ≠ s) :
    countOf counts s = 0 := by
  have hf : counts.find? (·.slot = s) = none := by
    simpa [List.find?_eq_none] using h
  rw [countOf, hf]
  rfl

theorem countOf_bump {counts : List SlotCount} (h : counts.Pairwise (·.slot < ·.slot))
    (s t : Nat) :
    countOf (bump s counts) t = countOf counts t + if s = t then 1 else 0 := by
  induction counts with
  | nil =>
    rw [bump, countOf_cons]
    split <;> rfl
  | cons c rest ih =>
    obtain ⟨hc, hr⟩ := List.pairwise_cons.1 h
    rw [bump]
    split
    · next he =>
      subst he
      rw [countOf_cons, countOf_cons]
      split <;> rfl
    · next hne =>
      split
      · next hlt =>
        -- a slot below all others was empty
        have hz : countOf (c :: rest) s = 0 := by
          apply countOf_eq_zero
          intro d hd
          rcases List.mem_cons.1 hd with rfl | hd
          · omega
          · have hcd := hc d hd
            omega
        rw [countOf_cons]
        by_cases he : s = t
        · subst he
          rw [if_pos rfl, if_pos rfl, hz]
        · rw [if_neg he, if_neg he, Nat.add_zero]
      · rw [countOf_cons, countOf_cons, ih hr]
        split
        · next he => rw [if_neg (by omega), Nat.add_zero]
        · rfl

theorem mem_iff_countOf {counts : List SlotCount} (hi : counts.Pairwise (·.slot < ·.slot))
    (hp : ∀ c ∈ counts, 0 < c.count) (c : SlotCount) :
    c ∈ counts ↔ 0 < c.count ∧ countOf counts c.slot = c.count := by
  induction counts with
  | nil =>
    simp only [List.not_mem_nil, false_iff, not_and]
    intro h0 h1
    rw [countOf_eq_zero (by simp)] at h1
    omega
  | cons d rest ih =>
    obtain ⟨hd, hr⟩ := List.pairwise_cons.1 hi
    rw [List.mem_cons, countOf_cons, ih hr fun e he => hp e (List.mem_cons_of_mem _ he)]
    split
    · next he =>
      constructor
      · rintro (rfl | ⟨h0, h1⟩)
        · exact ⟨hp c List.mem_cons_self, rfl⟩
        · rw [countOf_eq_zero fun e hm => ?_] at h1
          · omega
          · have hde := hd e hm
            omega
      · rintro ⟨-, h1⟩
        obtain ⟨slot, count⟩ := c
        obtain ⟨slot', count'⟩ := d
        simp_all
    · next hne =>
      have hcd : c ≠ d := fun he => hne (congrArg SlotCount.slot he.symm)
      simp [hcd]

theorem nodup_counts (h : Histogram) : h.counts.Nodup := by
  apply h.increasing.imp
  intro a b hlt he
  rw [he] at hlt
  exact Nat.lt_irrefl _ hlt

/-- A histogram that was read slot by slot is known. -/
theorem ext_countAt {h other : Histogram} (hp : h.precision = other.precision)
    (hc : ∀ s, h.countAt s = other.countAt s) : h = other := by
  have hperm : h.counts.Perm other.counts := by
    apply (List.perm_ext_iff_of_nodup h.nodup_counts other.nodup_counts).2
    intro c
    rw [mem_iff_countOf h.increasing h.positive, mem_iff_countOf other.increasing other.positive]
    show _ ∧ h.countAt c.slot = _ ↔ _ ∧ other.countAt c.slot = _
    rw [hc]
  have he : h.counts = other.counts :=
    hperm.eq_of_pairwise (fun a b _ _ hab hba => absurd hab (Nat.lt_asymm hba))
      h.increasing other.increasing
  cases h
  cases other
  simp_all

/-- The histogram after one more latency. -/
def observe (h : Histogram) (d : Duration) : Histogram := (h.record d.micros).toOption.getD h

/-- The histogram of latencies recorded in order. -/
def gather (p : Precision) (ds : List Duration) : Histogram := ds.foldl observe (.empty p)

theorem gather_append_singleton (p : Precision) (ds : List Duration) (d : Duration) :
    gather p (ds ++ [d]) = (gather p ds).observe d := by
  rw [gather, List.foldl_concat]
  rfl

theorem observe_of_lt {h : Histogram} {d : Duration} (hd : d.micros < ceiling) :
    h.record d.micros = .ok (h.observe d) := by
  simp [observe, record, hd, Except.toOption]

theorem observe_of_le {h : Histogram} {d : Duration} (hd : ceiling ≤ d.micros) :
    h.observe d = h := by
  simp [observe, record, Nat.not_lt.2 hd, Except.toOption]

@[simp] theorem precision_observe (h : Histogram) (d : Duration) :
    (h.observe d).precision = h.precision := by
  rcases Nat.lt_or_ge d.micros ceiling with hd | hd
  · simp [observe, record, hd, Except.toOption]
  · rw [observe_of_le hd]

@[simp] theorem precision_gather (p : Precision) (ds : List Duration) :
    (gather p ds).precision = p := by
  induction ds using List.reverseRecOn with
  | nil => rfl
  | append_singleton ds d ih => rw [gather_append_singleton, precision_observe, ih]

/-- Whether a latency is counted in a slot. -/
def Falls (p : Precision) (s : Nat) (d : Duration) : Prop :=
  d.micros < ceiling ∧ slot p d.micros = s

instance (p : Precision) (s : Nat) (d : Duration) : Decidable (Falls p s d) :=
  inferInstanceAs (Decidable (_ ∧ _))

theorem countAt_observe (h : Histogram) (d : Duration) (s : Nat) :
    (h.observe d).countAt s = h.countAt s + if Falls h.precision s d then 1 else 0 := by
  rcases Nat.lt_or_ge d.micros ceiling with hd | hd
  · have ho : (h.observe d).counts = bump (slot h.precision d.micros) h.counts := by
      simp [observe, record, hd, Except.toOption]
    show countOf (h.observe d).counts s = _
    rw [ho, countOf_bump h.increasing]
    simp only [Falls, hd, true_and]
    rfl
  · have hf : ¬Falls h.precision s d := fun hf => absurd hf.1 (Nat.not_lt.2 hd)
    rw [observe_of_le hd, if_neg hf, Nat.add_zero]

/-- A slot counts the latencies that fall into it. -/
theorem countAt_gather (p : Precision) (ds : List Duration) (s : Nat) :
    (gather p ds).countAt s = (ds.filter (Falls p s)).length := by
  induction ds using List.reverseRecOn with
  | nil => rfl
  | append_singleton ds d ih =>
    rw [gather_append_singleton, countAt_observe, ih, precision_gather, List.filter_append,
      List.length_append]
    split <;> simp [*]

/-- The order of latencies leaves no trace in a histogram. -/
theorem gather_perm (p : Precision) {ds es : List Duration} (h : ds.Perm es) :
    gather p ds = gather p es := by
  apply ext_countAt
  · rw [precision_gather, precision_gather]
  · intro s
    rw [countAt_gather, countAt_gather]
    exact (h.filter _).length_eq

theorem sum_bump (s : Nat) (counts : List SlotCount) :
    (bump s counts).foldr (fun c n => c.count + n) 0 =
      counts.foldr (fun c n => c.count + n) 0 + 1 := by
  induction counts with
  | nil => rfl
  | cons c rest ih =>
    rw [bump]
    split
    · simp only [List.foldr_cons]
      omega
    · split
      · simp only [List.foldr_cons]
        omega
      · simp only [List.foldr_cons, ih]
        omega

theorem total_observe (h : Histogram) (d : Duration) :
    (h.observe d).total = h.total + if d.micros < ceiling then 1 else 0 := by
  rcases Nat.lt_or_ge d.micros ceiling with hd | hd
  · have ho : (h.observe d).counts = bump (slot h.precision d.micros) h.counts := by
      simp [observe, record, hd, Except.toOption]
    rw [if_pos hd, total, ho, sum_bump, total]
  · rw [observe_of_le hd, if_neg (Nat.not_lt.2 hd), Nat.add_zero]

/-- The slots together count the latencies that have a bucket. -/
theorem total_gather (p : Precision) (ds : List Duration) :
    (gather p ds).total = ds.countP (·.micros < ceiling) := by
  induction ds using List.reverseRecOn with
  | nil => rfl
  | append_singleton ds d ih =>
    rw [gather_append_singleton, total_observe, ih, List.countP_append, List.countP_singleton]
    simp only [decide_eq_true_eq]

end Histogram

namespace HistogramTable

@[simp] theorem precision_record (t : HistogramTable) (name : String) (d : Duration) :
    (t.record name d).value.precision = t.precision := by
  simp only [record]
  split <;> rfl

/-- A latency changes the histogram of its name, if it changes anything. -/
theorem value_record (t : HistogramTable) (name : String) (d : Duration) :
    (t.record name d).value =
      t.put name { t.entry name with histogram := (t.entry name).histogram.observe d } := by
  rcases Nat.lt_or_ge d.micros Histogram.ceiling with hd | hd
  · rw [record, Histogram.observe_of_lt hd]
    rfl
  · rw [record, Histogram.observe_of_le hd]
    simp [Histogram.record, Nat.not_lt.2 hd]

/-- A latency changes the entry of its name alone, which is there afterwards. -/
theorem get?_record (t : HistogramTable) (name : String) (d : Duration) (key : String) :
    (t.record name d).value.entries.get? key =
      if key = name then some { t.entry name with histogram := (t.entry name).histogram.observe d }
      else t.entries.get? key := by
  rw [value_record, put, Table.get?_alter]

theorem keys_record_subset (t : HistogramTable) (name : String) (d : Duration) :
    (t.record name d).value.entries.keys ⊆ name :: t.entries.keys := by
  rw [value_record, put, Table.keys_alter]
  split
  · exact List.subset_cons_self _ _
  · exact List.append_subset.2 ⟨List.subset_cons_self _ _, by simp⟩

/-- A latency beyond the last bucket is logged, and no other one is. -/
theorem events_record (t : HistogramTable) (name : String) (d : Duration) :
    (t.record name d).events =
      if d.micros < Histogram.ceiling then []
      else [.say .error
        ("Failed to record histogram: " ++ (HistogramError.record d.micros).message)] := by
  rcases Nat.lt_or_ge d.micros Histogram.ceiling with hd | hd
  · rw [if_pos hd, record, Histogram.observe_of_lt hd]
    rfl
  · rw [if_neg (Nat.not_lt.2 hd)]
    simp [record, Histogram.record, Nat.not_lt.2 hd]

theorem events_record_eq_nil_iff (t : HistogramTable) (name : String) (d : Duration) :
    (t.record name d).events = [] ↔ d.micros < Histogram.ceiling := by
  rw [events_record]
  split
  · next hd => exact ⟨fun _ => hd, fun _ => rfl⟩
  · next hd => exact ⟨fun he => absurd he (List.cons_ne_nil _ _), fun hlt => absurd hlt hd⟩

end HistogramTable
end SpanMetrics
