import SpanMetrics.Proofs.Counter.Grouping
import SpanMetrics.Proofs.Response.Keys

/-!
# Counting responses

What a table holds after responses alone were recorded in it. The entry of a
series without a method is exact: it counts the responses that belong to the
series and adds up their values in order. The entries by method may run together,
but each of them keeps a tag with a method, and together they count every
response once.
-/
namespace SpanMetrics

namespace ResponseSeries

/-- Whether the series is one by method. -/
def hasMethod : ResponseSeries → Bool
  | byMethod _ _ => true
  | _ => false

/-- Only series by method run together. -/
theorem key_eq_iff_of_not_hasMethod {a b : ResponseSeries} (h : a.hasMethod = false) :
    b.key = a.key ↔ b = a := by
  rw [key_eq_iff]
  constructor
  · rintro (he | hr)
    · exact he
    · cases a <;> cases b <;> simp_all [Recombined, hasMethod]
  · exact .inl

theorem hasMethod_eq (a : ResponseSeries) : a.hasMethod = decide (a.kind = .byMethod) := by
  cases a <;> rfl

end ResponseSeries

/-- Whether a set has a tag with the method. -/
def TagSet.hasMethod (tags : TagSet) : Bool := tags.toList.any (·.name = "HttpMethod")

theorem ResponseSeries.hasMethod_tags (a : ResponseSeries) : a.tags.hasMethod = a.hasMethod := by
  cases a with
  | overall t => rfl
  | byMethod t m => simp [TagSet.hasMethod, toList_tags_byMethod, hasMethod]
  | byStatus t n => simp [TagSet.hasMethod, toList_tags_byStatus, hasMethod]
  | failures t => simp [TagSet.hasMethod, toList_tags_failures, hasMethod]

namespace ResponseTime

theorem nodup_series (r : ResponseTime) : r.series.Nodup := by
  simp only [series]
  split <;> simp

/-- Of the updates of a response at most one has a given key. -/
theorem filter_updates_key (r : ResponseTime) (a : ResponseSeries) (h : a.hasMethod = false) :
    r.updates.filter (·.key = a.key) = if a ∈ r.series then [r.updateOf a] else [] := by
  have hf : ((fun u : CounterUpdate => decide (u.key = a.key)) ∘ r.updateOf) =
      fun b => decide (b = a) := by
    funext b
    simp [key_updateOf, ResponseSeries.key_eq_iff_of_not_hasMethod h]
  rw [updates_eq, List.filter_map, hf, List.filter_eq, r.nodup_series.count]
  split <;> rfl

theorem length_filter_updates_key_le (r : ResponseTime) (key : String) :
    (r.updates.filter (·.key = key)).length ≤ 1 := by
  rw [updates_eq, List.filter_map, List.length_map, ← List.countP_eq_length_filter]
  have hp : r.series.Pairwise fun a b => a.key ≠ b.key := by
    simp only [series, Ne, ResponseSeries.key_eq_iff]
    split <;> simp [ResponseSeries.Recombined]
  have hn : (r.series.map ResponseSeries.key).Nodup := List.pairwise_map.2 hp
  have hc := List.nodup_iff_count_le_one.1 hn key
  rw [List.count, List.countP_map] at hc
  refine le_trans (le_of_eq ?_) hc
  exact List.countP_congr fun a _ => decide_eq_true_iff.trans beq_iff_eq.symm

theorem length_filter_updates (r : ResponseTime) (p : TagSet → Bool) :
    (r.updates.filter (p ·.tags)).length = r.series.countP (p ·.tags) := by
  rw [updates_eq, List.filter_map, List.length_map, List.countP_eq_length_filter]
  rfl

end ResponseTime

namespace CounterTable

/-- Records responses in order. -/
def recordResponses (t : CounterTable) (rs : List ResponseTime) : CounterTable :=
  rs.foldl recordResponse t

@[simp] theorem recordResponses_nil (t : CounterTable) : t.recordResponses [] = t := rfl

@[simp] theorem recordResponses_cons (t : CounterTable) (r : ResponseTime)
    (rs : List ResponseTime) :
    t.recordResponses (r :: rs) = (t.recordResponse r).recordResponses rs := rfl

theorem recordResponses_append (t : CounterTable) (rs qs : List ResponseTime) :
    t.recordResponses (rs ++ qs) = (t.recordResponses rs).recordResponses qs :=
  List.foldl_append

theorem recordResponses_concat (t : CounterTable) (rs : List ResponseTime) (r : ResponseTime) :
    t.recordResponses (rs ++ [r]) = (t.recordResponses rs).recordResponse r := by
  rw [recordResponses_append, recordResponses_cons, recordResponses_nil]

theorem recordResponses_eq (t : CounterTable) (rs : List ResponseTime) :
    t.recordResponses rs = t.recordAll (rs.flatMap ResponseTime.updates) := by
  induction rs generalizing t with
  | nil => rfl
  | cons r rs ih =>
    rw [List.flatMap_cons, recordAll_append]
    exact ih (t.recordResponse r)

end CounterTable

/-- Updates of responses count one each. -/
theorem sum_count_updateOf {us : List CounterUpdate}
    (h : ∀ u ∈ us, ∃ (r : ResponseTime) (a : ResponseSeries), u = r.updateOf a) :
    (us.map (·.count)).sum = us.length := by
  induction us with
  | nil => rfl
  | cons u us ih =>
    obtain ⟨r, a, rfl⟩ := h u List.mem_cons_self
    rw [List.map_cons, List.sum_cons, ih fun v hv => h v (List.mem_cons_of_mem _ hv),
      List.length_cons]
    exact Int.add_comm 1 _

/-- What responses add up to in a series that counts all of them. -/
def ResponseSeries.summed? (a : ResponseSeries) : List ResponseTime → Option Counter
  | [] => none
  | r :: rs => some ⟨"TransactionResponseTime", a.tags, (r :: rs).length,
      (r :: rs).foldl (fun sum s => sum + s.value) .zero, true⟩

theorem gather_map_updateOf (a : ResponseSeries) (rs : List ResponseTime) :
    Counter.gather (rs.map fun r => r.updateOf a) = a.summed? rs := by
  cases rs with
  | nil => rfl
  | cons r rs =>
    have hc : ∀ u ∈ (r :: rs).map (fun r => r.updateOf a),
        ∃ (r : ResponseTime) (a : ResponseSeries), u = r.updateOf a := by
      intro u hu
      obtain ⟨s, -, rfl⟩ := List.mem_map.1 hu
      exact ⟨s, a, rfl⟩
    have hs := sum_count_updateOf hc
    rw [List.map_cons] at hs ⊢
    rw [Counter.gather, hs, List.foldl_cons, List.foldl_map, List.length_cons, List.length_map]
    rfl

namespace CounterTable

variable (rs : List ResponseTime)

theorem filter_flatMap_updates {a : ResponseSeries} (h : a.hasMethod = false) :
    (rs.flatMap ResponseTime.updates).filter (·.key = a.key) =
      (rs.filter (a ∈ ·.series)).map fun r => r.updateOf a := by
  induction rs with
  | nil => rfl
  | cons r rs ih =>
    rw [List.flatMap_cons, List.filter_append, ih, r.filter_updates_key a h]
    by_cases hm : a ∈ r.series <;> simp [hm]

/-- The entry of a series without a method has all responses of the series, in order. -/
theorem get?_recordResponses {a : ResponseSeries} (h : a.hasMethod = false) :
    (recordResponses .empty rs).get? a.key = a.summed? (rs.filter (a ∈ ·.series)) := by
  rw [recordResponses_eq, get?_recordAll (Table.get?_empty _), filter_flatMap_updates rs h,
    gather_map_updateOf]

theorem exists_updateOf_of_mem {u : CounterUpdate} (h : u ∈ rs.flatMap ResponseTime.updates) :
    ∃ (r : ResponseTime) (a : ResponseSeries), u = r.updateOf a := by
  obtain ⟨r, -, hr⟩ := List.mem_flatMap.1 h
  rw [ResponseTime.updates_eq] at hr
  obtain ⟨a, -, rfl⟩ := List.mem_map.1 hr
  exact ⟨r, a, rfl⟩

/-- Every entry belongs to a series of responses and stands under its key. -/
theorem exists_series_of_get? {key : String} {c : Counter}
    (h : (recordResponses .empty rs).get? key = some c) :
    ∃ a : ResponseSeries, c.series = a.series ∧ key = a.key := by
  rw [recordResponses_eq] at h
  obtain ⟨u, hu, rfl, hc⟩ := exists_update_of_get? h
  obtain ⟨r, a, rfl⟩ := exists_updateOf_of_mem rs hu
  exact ⟨a, hc, r.key_updateOf a⟩

/-- The entries with the tags of a series without a method: one if there are
responses of the series, else none. -/
theorem filter_values_recordResponses {a : ResponseSeries} (h : a.hasMethod = false) :
    (recordResponses .empty rs).values.filter (·.tags = a.tags) =
      (a.summed? (rs.filter (a ∈ ·.series))).toList := by
  rw [← get?_recordResponses rs h]
  apply Table.filter_values_eq_toList
  intro k c hc
  obtain ⟨b, hs, rfl⟩ := exists_series_of_get? rs hc
  have ht : c.tags = b.tags := congrArg Series.tags hs
  rw [decide_eq_true_iff, ht, ResponseSeries.key_eq_iff_of_not_hasMethod h]
  constructor
  · intro he
    refine (ResponseSeries.key_eq_iff_of_not_hasMethod h).1 ?_
    rw [ResponseSeries.key, ResponseSeries.key, ResponseSeries.series, ResponseSeries.series, he]
  · rintro rfl
    rfl

theorem length_filter_flatMap_updates_le (key : String) :
    ((rs.flatMap ResponseTime.updates).filter (·.key = key)).length ≤ rs.length := by
  induction rs with
  | nil => exact le_rfl
  | cons r rs ih =>
    rw [List.flatMap_cons, List.filter_append, List.length_append, List.length_cons]
    have hr := r.length_filter_updates_key_le key
    omega

/-- An entry counts some of the responses, none of them twice. -/
theorem count_bounds {c : Counter} (h : c ∈ (recordResponses .empty rs).values) :
    0 < c.count ∧ c.count ≤ rs.length := by
  obtain ⟨key, hg⟩ := (Table.mem_values_iff _).1 h
  rw [recordResponses_eq, get?_recordAll (Table.get?_empty _)] at hg
  obtain ⟨hne, hc⟩ := Counter.count_of_gather hg
  have hl := length_filter_flatMap_updates_le rs key
  have hp := List.length_pos_of_ne_nil hne
  rw [hc, sum_count_updateOf fun u hu => exists_updateOf_of_mem rs (List.mem_filter.1 hu).1]
  omega

/-- Fewer than `2 ^ 63` responses are counted within 64 bits. -/
theorem toInt_kept_of_length (hl : rs.length < 2 ^ 63) {c : Counter}
    (h : c ∈ (recordResponses .empty rs).values) : c.kept.toInt = c.count := by
  have hb := count_bounds rs h
  have hw : Width.half64 = 2 ^ 63 := rfl
  exact Counter.toInt_kept (by omega) (by omega)

/-- The entries of a kind together count a response as often as it has series of the
kind. -/
theorem sum_count_recordResponses {k : ResponseSeries.Kind} {p : TagSet → Bool}
    (hp : ∀ a : ResponseSeries, p a.tags = decide (a.kind = k)) :
    (((recordResponses .empty rs).values.filter (p ·.tags)).map (·.count)).sum =
      (rs.map fun r => r.series.countP (·.kind = k)).sum := by
  have hk : ∀ u ∈ rs.flatMap ResponseTime.updates, ∀ v ∈ rs.flatMap ResponseTime.updates,
      u.key = v.key → p u.series.tags = p v.series.tags := by
    intro u hu v hv he
    obtain ⟨r, a, rfl⟩ := exists_updateOf_of_mem rs hu
    obtain ⟨s, b, rfl⟩ := exists_updateOf_of_mem rs hv
    rw [r.key_updateOf, s.key_updateOf] at he
    show p a.tags = p b.tags
    rw [hp, hp, ResponseSeries.kind_of_key_eq he]
  have ht := total_recordAll (p := fun s => p s.tags) _ hk
  rw [← recordResponses_eq, total] at ht
  have hone : ∀ u ∈ (rs.flatMap ResponseTime.updates).filter (p ·.tags),
      ∃ (r : ResponseTime) (a : ResponseSeries), u = r.updateOf a := fun u hu =>
    exists_updateOf_of_mem rs (List.mem_filter.1 hu).1
  refine ht.trans ((sum_count_updateOf hone).trans (congrArg Nat.cast ?_))
  simp only [List.filter_flatMap, List.length_flatMap, ResponseTime.length_filter_updates, hp]

/-- The entries by method count every response once. -/
theorem sum_hasMethod_recordResponses :
    (((recordResponses .empty rs).values.filter (·.tags.hasMethod)).map (·.count)).sum =
      rs.length := by
  have hone : (fun r : ResponseTime => r.series.countP (·.kind = .byMethod)) = fun _ => 1 := by
    funext r
    rw [ResponseTime.series]
    split <;> rfl
  rw [sum_count_recordResponses rs fun a => a.hasMethod_tags.trans a.hasMethod_eq, hone]
  simp

end CounterTable
end SpanMetrics
