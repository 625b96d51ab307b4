import SpanMetrics.Proofs.Aggregation.Responses

/-!
# Counters of a cycle

What a drain gives out of the counters, whatever was recorded in them. A response is
a few updates in a row, so a history of both kinds of recordings is one list of
updates, and the table is that list grouped by key. The rest of the state may be used
in any way in between.
-/
namespace SpanMetrics

/-- Whether an operation leaves the entries in the counters. -/
def Operation.keepsCounters : Operation → Bool
  | .drainCounters | .drain => false
  | _ => true

namespace Aggregation

/-- The updates that an operation makes, in order. -/
def updates (s : Aggregation) : Operation → List CounterUpdate
  | .recordCounter update => [update]
  | op => (s.sample? op).toList.flatMap ResponseTime.updates

/-- The updates that a history makes, in order. -/
def updatesAll : Aggregation → List Operation → List CounterUpdate
  | _, [] => []
  | s, op :: ops => s.updates op ++ (s.perform op).value.2.updatesAll ops

theorem counters_perform_of_keeps (s : Aggregation) {op : Operation} (h : op.keepsCounters) :
    (s.perform op).value.2.counters = s.counters.recordAll (s.updates op) := by
  cases op with
  | recordCounter update => rfl
  | drainCounters | drain => exact absurd h Bool.false_ne_true
  | _ => exact (s.counters_perform rfl).trans (s.counters.recordResponses_eq _)

theorem counters_performAll_of_keeps (s : Aggregation) {ops : List Operation}
    (h : ∀ op ∈ ops, op.keepsCounters) :
    (s.performAll ops).value.2.counters = s.counters.recordAll (s.updatesAll ops) := by
  induction ops generalizing s with
  | nil => rfl
  | cons op ops ih =>
    obtain ⟨hop, hops⟩ := List.forall_mem_cons.1 h
    rw [performAll_cons, ih _ hops, s.counters_perform_of_keeps hop, updatesAll,
      CounterTable.recordAll_append]

/-- The counters of a state that was new are those of some updates. -/
theorem exists_counters_performAll (s : Aggregation) (h : ∃ us, s.counters = .recordAll .empty us)
    (ops : List Operation) : ∃ us, (s.performAll ops).value.2.counters = .recordAll .empty us := by
  induction ops generalizing s with
  | nil => exact h
  | cons op ops ih =>
    rw [performAll_cons]
    apply ih
    by_cases hk : op.keepsCounters
    · obtain ⟨us, hus⟩ := h
      refine ⟨us ++ s.updates op, ?_⟩
      rw [s.counters_perform_of_keeps hk, hus, CounterTable.recordAll_append]
    · -- the operation is a drain of the counters
      refine ⟨[], ?_⟩
      cases op <;> first | rfl | exact absurd rfl hk

/-- Counters that were empty are drained as one entry for each key of the updates since
then. It has the name, the tags and the kind of the first update with the key, and the
counts and values of all of them, added up in the order in which they came. On 64 bits
the count is the sum that wraps around, and the count itself if that fits. Nothing is
left behind, and an update never reaches the entry of another key. A response stands
for one update of each of its three or four series. -/
theorem drain_groups (s : Aggregation) (hs : s.counters = .empty) (ops : List Operation)
    (hops : ∀ op ∈ ops, op.keepsCounters) :
    let us := s.updatesAll ops
    let (entries, after) := (s.performAll ops).value.2.drainCounters
    (entries.map (·.key)).Perm (us.map (·.key)).eraseDups ∧
    (∀ c ∈ entries, ∃ first rest, us.filter (·.key = c.key) = first :: rest ∧
      c.name = first.name ∧ c.tags = first.tags ∧ c.reportSum = first.reportSum ∧
      c.count = ((first :: rest).map (·.count)).sum ∧
      c.kept = (first :: rest).foldl (fun n u => n + .ofInt u.count) 0 ∧
      (-2 ^ 63 ≤ c.count ∧ c.count < 2 ^ 63 → c.kept.toInt = c.count) ∧
      c.sum = (first :: rest).foldl (fun sum u => sum + u.value) .zero) ∧
    after.counters = .empty ∧
    (∀ (t : CounterTable) (u : CounterUpdate) (key : String), key ≠ u.key →
      (t.record u).get? key = t.get? key) ∧
    (∀ (t : CounterTable) (r : ResponseTime) (key : String), (∀ u ∈ r.updates, key ≠ u.key) →
      (t.recordResponse r).get? key = t.get? key) ∧
    ∀ r : ResponseTime, r.updates =
      List.map (fun a : ResponseSeries => ⟨"TransactionResponseTime", a.tags, r.value, 1, true⟩)
        ([.overall r.transaction, .byMethod r.transaction r.method,
          .byStatus r.transaction r.status] ++
          if r.failed then [.failures r.transaction] else []) := by
  intro us
  have he : (s.performAll ops).value.2.counters = CounterTable.recordAll .empty us := by
    rw [s.counters_performAll_of_keeps hops, hs]
  refine ⟨?_, ?_, rfl, fun t u key h => CounterTable.get?_record_of_ne h,
    fun t r key h => CounterTable.get?_recordAll_of_ne h, ResponseTime.updates_eq⟩
  · apply List.Perm.of_eq
    show (s.performAll ops).value.2.counters.values.map (·.key) = _
    rw [he, CounterTable.map_key_values]
  · intro c hc
    have hm : c ∈ (s.performAll ops).value.2.counters.values := hc
    rw [he] at hm
    have hg := CounterTable.gather_of_mem_values hm
    cases hf : us.filter (·.key = c.key) with
    | nil =>
      rw [hf] at hg
      cases hg
    | cons first rest =>
      rw [hf] at hg
      have hkept := Counter.kept_of_gather hg
      have hfits : -2 ^ 63 ≤ c.count ∧ c.count < 2 ^ 63 → c.kept.toInt = c.count :=
        fun hb => Counter.toInt_kept hb.1 hb.2
      obtain rfl := Option.some.inj hg
      exact ⟨first, rest, rfl, rfl, rfl, rfl, rfl, hkept, hfits, rfl⟩

/-- Two updates whose tags came in another order, and one of a response that has the
same key as one that was made by hand. -/
theorem drain_groups_of_four :
    let s := (Aggregation.new 2 1).value
    let ops : List Operation :=
      [.recordCounter ⟨"m", .ofList [⟨"a", "1"⟩, ⟨"b", "2"⟩], .ofNat 1, 3, false⟩,
        .recordCounter ⟨"m", .ofList [⟨"b", "2"⟩, ⟨"a", "1"⟩], .ofNat 2, 4, false⟩,
        .recordCounter ⟨"TransactionResponseTime", .ofList [⟨"TransactionName", "t"⟩], .ofNat 5,
          7, true⟩,
        .recordResponse ⟨"t", "GET", 200, false, .ofNat 8⟩]
    let (entries, after) := (s.performAll ops).value.2.drainCounters
    s.counters = .empty ∧ (∀ op ∈ ops, op.keepsCounters) ∧
      (entries.map (·.key)).Perm ["m&false&a:1&b:2&",
        "TransactionResponseTime&true&TransactionName:t&",
        "TransactionResponseTime&true&HttpMethod:GET&TransactionName:t&",
        "TransactionResponseTime&true&HttpStatus:200&TransactionName:t&"] ∧
      entries.map (·.count) = [7, 8, 1, 1] ∧
      entries.map (·.sum) = [.ofNat 3, .ofNat 13, .ofNat 8, .ofNat 8] ∧
      after.counters = .empty := by
  intro s ops
  have hops : ∀ op ∈ ops, op.keepsCounters := by decide
  obtain ⟨hkeys, -, hafter, -⟩ := drain_groups s rfl ops hops
  refine ⟨rfl, hops, hkeys.trans (List.Perm.of_eq ?_), ?_, ?_, hafter⟩ <;> decide +kernel

end Aggregation
end SpanMetrics
