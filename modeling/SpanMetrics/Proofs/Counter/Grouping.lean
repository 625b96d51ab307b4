import SpanMetrics.Counter
import SpanMetrics.Proofs.List.Distinct
import SpanMetrics.Proofs.Series.Key
import SpanMetrics.Proofs.Table.Values

/-!
# Counters by key

Recording updates one after the other groups them by key: the entry of a key is
what its own updates add up to, in the order in which they came, whatever was
recorded under other keys in between.
-/
namespace SpanMetrics

namespace Counter

/-- The series of the first update with what all updates add to it. -/
def gather : List CounterUpdate → Option Counter
  | [] => none
  | u :: us => some ⟨u.name, u.tags, ((u :: us).map (·.count)).sum,
      (u :: us).foldl (fun sum v => sum + v.value) .zero, u.reportSum⟩

theorem foldl_add (us : List CounterUpdate) (c : Counter) :
    us.foldl add c = { c with
      count := c.count + (us.map (·.count)).sum
      sum := us.foldl (fun sum v => sum + v.value) c.sum } := by
  induction us generalizing c with
  | nil => simp
  | cons u us ih =>
    rw [List.foldl_cons, ih]
    simp [add, Int.add_assoc]

/-- An entry that was gathered has the series of one of the updates. -/
theorem exists_of_gather {us : List CounterUpdate} {c : Counter} (h : gather us = some c) :
    ∃ u ∈ us, c.series = u.series := by
  cases us with
  | nil => simp [gather] at h
  | cons u us =>
    rw [gather] at h
    obtain rfl := Option.some.inj h
    exact ⟨u, List.mem_cons_self, rfl⟩

theorem count_of_gather {us : List CounterUpdate} {c : Counter} (h : gather us = some c) :
    us ≠ [] ∧ c.count = (us.map (·.count)).sum := by
  cases us with
  | nil => simp [gather] at h
  | cons u us =>
    rw [gather] at h
    obtain rfl := Option.some.inj h
    exact ⟨List.cons_ne_nil _ _, rfl⟩

theorem kept_foldl_add (us : List CounterUpdate) (c : Counter) :
    (us.foldl add c).kept = us.foldl (fun n u => n + .ofInt u.count) c.kept := by
  induction us generalizing c with
  | nil => rfl
  | cons u us ih => rw [List.foldl_cons, ih, kept_add, List.foldl_cons]

/-- What 64 bits keep of an entry that was gathered is added up on 64 bits. -/
theorem kept_of_gather {us : List CounterUpdate} {c : Counter} (h : gather us = some c) :
    c.kept = us.foldl (fun n u => n + .ofInt u.count) 0 := by
  obtain ⟨hne, hc⟩ := count_of_gather h
  obtain ⟨first, rest, rfl⟩ := List.exists_cons_of_ne_nil hne
  have hf := kept_foldl_add (first :: rest) (start first)
  rw [foldl_add, kept_start] at hf
  rw [← hf, kept, hc]
  exact congrArg Int64.ofInt (Int.zero_add _).symm

@[simp] theorem series_add (c : Counter) (u : CounterUpdate) : (c.add u).series = c.series := rfl

end Counter

namespace CounterTable

theorem get?_record (t : CounterTable) (u : CounterUpdate) (key : String) :
    (t.record u).get? key =
      if key = u.key then some (((t.get? key).getD (.start u)).add u) else t.get? key := by
  rw [record, Table.get?_alter]
  split
  · next h => rw [h]
  · rfl

@[simp] theorem recordAll_nil (t : CounterTable) : t.recordAll [] = t := rfl

@[simp] theorem recordAll_cons (t : CounterTable) (u : CounterUpdate) (us : List CounterUpdate) :
    t.recordAll (u :: us) = (t.record u).recordAll us := rfl

theorem recordAll_append (t : CounterTable) (us vs : List CounterUpdate) :
    t.recordAll (us ++ vs) = (t.recordAll us).recordAll vs := List.foldl_append

/-- Updates under other keys do not matter to the entry of a key. -/
theorem get?_recordAll_of_some {t : CounterTable} {key : String} {c : Counter}
    (h : t.get? key = some c) (us : List CounterUpdate) :
    (t.recordAll us).get? key = some ((us.filter (·.key = key)).foldl Counter.add c) := by
  induction us generalizing t c with
  | nil => exact h
  | cons u us ih =>
    rw [recordAll_cons]
    by_cases hk : u.key = key
    · have hr : (t.record u).get? key = some (c.add u) := by
        rw [get?_record, if_pos hk.symm, h]
        rfl
      rw [ih hr]
      simp [hk]
    · have hr : (t.record u).get? key = some c := by
        rw [get?_record, if_neg (Ne.symm hk), h]
      rw [ih hr]
      simp [hk]

/-- A table that was empty has for every key what the updates with this key gather. -/
theorem get?_recordAll {t : CounterTable} {key : String} (h : t.get? key = none)
    (us : List CounterUpdate) :
    (t.recordAll us).get? key = Counter.gather (us.filter (·.key = key)) := by
  induction us generalizing t with
  | nil => exact h
  | cons u us ih =>
    rw [recordAll_cons]
    by_cases hk : u.key = key
    · have hr : (t.record u).get? key = some ((Counter.start u).add u) := by
        rw [get?_record, if_pos hk.symm, h]
        rfl
      rw [get?_recordAll_of_some hr, Counter.foldl_add]
      simp [hk, Counter.gather, Counter.add, Counter.start]
    · have hr : (t.record u).get? key = none := by
        rw [get?_record, if_neg (Ne.symm hk), h]
      rw [ih hr]
      simp [hk]

/-- An update leaves the entries of the other keys alone. -/
theorem get?_record_of_ne {t : CounterTable} {u : CounterUpdate} {key : String}
    (h : key ≠ u.key) : (t.record u).get? key = t.get? key := by
  rw [get?_record, if_neg h]

theorem get?_recordAll_of_ne {t : CounterTable} {us : List CounterUpdate} {key : String}
    (h : ∀ u ∈ us, key ≠ u.key) : (t.recordAll us).get? key = t.get? key := by
  induction us generalizing t with
  | nil => rfl
  | cons u us ih =>
    obtain ⟨hu, hus⟩ := List.forall_mem_cons.1 h
    rw [recordAll_cons, ih hus, get?_record_of_ne hu]

/-- There is one entry for each key that was used. -/
theorem keys_recordAll (us : List CounterUpdate) :
    (recordAll .empty us).keys = (us.map (·.key)).eraseDups := by
  induction us using List.reverseRecOn with
  | nil => rfl
  | append_singleton us u ih =>
    have hm : u.key ∈ (us.map (·.key)).eraseDups ↔ u.key ∈ us.map (·.key) := List.mem_eraseDups
    rw [recordAll_append, recordAll_cons, recordAll_nil, record, Table.keys_alter, ih,
      List.map_append, List.map_singleton, eraseDups_concat]
    simp only [hm]

/-- The counts of the entries whose series is of some kind, added up. -/
def total (p : Series → Bool) (t : CounterTable) : Int :=
  ((t.values.filter (p ·.series)).map (·.count)).sum

/-- What an entry adds to the total of a kind. -/
def share (p : Series → Bool) (c : Counter) : Int := if p c.series then c.count else 0

theorem total_eq_sum (p : Series → Bool) (t : CounterTable) :
    t.total p = (t.values.map (share p)).sum := by
  unfold total
  induction t.values with
  | nil => rfl
  | cons c rest ih => by_cases h : p c.series <;> simp [share, h, ih]

theorem share_start (p : Series → Bool) (u : CounterUpdate) : share p (.start u) = 0 := by
  unfold share
  split <;> rfl

theorem share_add {p : Series → Bool} {c : Counter} {u : CounterUpdate}
    (h : p c.series = p u.series) :
    share p (c.add u) = share p c + if p u.series then u.count else 0 := by
  rw [share, share, Counter.series_add, h]
  split <;> simp [Counter.add]

/-- An update raises the total of its kind by its count, if the entry that it
reaches is of the same kind. -/
theorem total_record {p : Series → Bool} {t : CounterTable} {u : CounterUpdate}
    (h : ∀ c, t.get? u.key = some c → p c.series = p u.series) :
    (t.record u).total p = t.total p + if p u.series then u.count else 0 := by
  have hs := Table.sum_values_alter t u.key (fun c => (c.getD (.start u)).add u) (share p)
  rw [total_eq_sum, total_eq_sum, record]
  cases hg : t.get? u.key with
  | none =>
    rw [hg, Option.getD_none, share_add rfl, share_start] at hs
    simp only [Option.map_none, Option.getD_none] at hs
    omega
  | some c =>
    rw [hg, Option.getD_some, share_add (h c hg)] at hs
    simp only [Option.map_some, Option.getD_some] at hs
    omega

/-- An entry has the series of some update with its key. -/
theorem exists_update_of_get? {us : List CounterUpdate} {key : String} {c : Counter}
    (h : (recordAll .empty us).get? key = some c) :
    ∃ u ∈ us, u.key = key ∧ c.series = u.series := by
  rw [get?_recordAll (Table.get?_empty _)] at h
  obtain ⟨u, hu, hc⟩ := Counter.exists_of_gather h
  obtain ⟨hm, hk⟩ := List.mem_filter.1 hu
  exact ⟨u, hm, of_decide_eq_true hk, hc⟩

theorem key_of_get? {us : List CounterUpdate} {key : String} {c : Counter}
    (h : (recordAll .empty us).get? key = some c) : c.key = key := by
  obtain ⟨u, -, hk, hc⟩ := exists_update_of_get? h
  rw [← hk, ← Counter.key_series, hc, CounterUpdate.key_series]

theorem map_key_values (us : List CounterUpdate) :
    (recordAll .empty us).values.map (·.key) = (us.map (·.key)).eraseDups := by
  rw [Table.map_values_eq_keys _ fun _ _ h => key_of_get? h, keys_recordAll]

/-- An entry is what the updates with its key gather. -/
theorem gather_of_mem_values {us : List CounterUpdate} {c : Counter}
    (h : c ∈ (recordAll .empty us).values) :
    Counter.gather (us.filter (·.key = c.key)) = some c := by
  obtain ⟨key, hg⟩ := (Table.mem_values_iff _).1 h
  have hk : c.key = key := key_of_get? hg
  rw [hk, ← hg, get?_recordAll (Table.get?_empty _)]

/-- Keys and counts of the entries, in terms of the updates. -/
theorem map_key_count_values (us : List CounterUpdate) :
    (recordAll .empty us).values.map (fun c => (c.key, c.count)) =
      (us.map (·.key)).eraseDups.map fun key =>
        (key, ((us.filter (·.key = key)).map (·.count)).sum) := by
  rw [← map_key_values, List.map_map]
  apply List.map_congr_left
  intro c hc
  have hcount := (Counter.count_of_gather (gather_of_mem_values hc)).2
  exact congrArg (Prod.mk c.key) hcount

/-- The order of updates decides neither which keys there are nor what is counted under
them. -/
theorem key_count_values_perm {us vs : List CounterUpdate} (h : us.Perm vs) :
    ((recordAll .empty us).values.map fun c => (c.key, c.count)).Perm
      ((recordAll .empty vs).values.map fun c => (c.key, c.count)) := by
  have hcount : ∀ key, ((us.filter (·.key = key)).map (·.count)).sum =
      ((vs.filter (·.key = key)).map (·.count)).sum := fun key =>
    ((h.filter _).map _).sum_eq
  rw [map_key_count_values, map_key_count_values]
  simp only [hcount]
  exact (perm_eraseDups (h.map _)).map _

/-- If updates with one key are of one kind, the total of a kind is what its
updates count. -/
theorem total_recordAll {p : Series → Bool} (us : List CounterUpdate)
    (h : ∀ u ∈ us, ∀ v ∈ us, u.key = v.key → p u.series = p v.series) :
    (recordAll .empty us).total p = ((us.filter (p ·.series)).map (·.count)).sum := by
  induction us using List.reverseRecOn with
  | nil => rfl
  | append_singleton us u ih =>
    have hus := ih fun v hv w hw => h v (List.mem_append_left _ hv) w (List.mem_append_left _ hw)
    have hu : ∀ c, (recordAll .empty us).get? u.key = some c → p c.series = p u.series := by
      intro c hc
      obtain ⟨v, hv, hk, hs⟩ := exists_update_of_get? hc
      rw [hs]
      exact h v (List.mem_append_left _ hv) u (List.mem_append_right _ List.mem_cons_self) hk
    rw [recordAll_append, recordAll_cons, recordAll_nil, total_record hu, hus, List.filter_append]
    by_cases hp : p u.series <;> simp [hp]

end CounterTable
end SpanMetrics
