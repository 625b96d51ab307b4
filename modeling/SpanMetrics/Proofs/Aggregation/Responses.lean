import SpanMetrics.Proofs.Aggregation.Steps
import SpanMetrics.Proofs.Response.FanOut

/-!
# Response times of a cycle

What a drain gives out when the counters were fed by requests and response times
alone. The other parts of the state may be used in any way in between: a request
takes its transaction from the registry as it stands when the request comes, and
nothing else of the state reaches the counters.
-/
namespace SpanMetrics

/-- Whether an operation leaves the counters to the responses. -/
def Operation.onlyResponds : Operation → Bool
  | .recordCounter _ | .drainCounters | .drain => false
  | _ => true

namespace Aggregation

/-- The response that an operation records. That of a request has the method, the status and
the failure of the request and its nanoseconds, under the transaction that the registry has
for it. -/
def sample? (s : Aggregation) : Operation → Option ResponseTime
  | .recordSpan span => some ⟨(s.classification span).transaction, span.method, span.status,
      span.failed, .ofNat span.duration.nanos⟩
  | .recordResponse response => some response
  | _ => none

/-- The responses that a history records, in order. -/
def samples : Aggregation → List Operation → List ResponseTime
  | _, [] => []
  | s, op :: ops => (s.sample? op).toList ++ (s.perform op).value.2.samples ops

theorem counters_perform (s : Aggregation) {op : Operation} (h : op.onlyResponds) :
    (s.perform op).value.2.counters = s.counters.recordResponses (s.sample? op).toList := by
  cases op with
  | recordSpan span =>
    rw [sample?, Option.toList_some, CounterTable.recordResponses_cons,
      CounterTable.recordResponses_nil, perform_recordSpan, counters_recordSpan]
    rfl
  | recordResponse response =>
    rw [sample?, Option.toList_some, CounterTable.recordResponses_cons,
      CounterTable.recordResponses_nil, perform_recordResponse, counters_recordResponse]
  | recordCounter | drainCounters | drain => exact absurd h Bool.false_ne_true
  | _ => rfl

theorem counters_performAll (s : Aggregation) {ops : List Operation}
    (h : ∀ op ∈ ops, op.onlyResponds) :
    (s.performAll ops).value.2.counters = s.counters.recordResponses (s.samples ops) := by
  induction ops generalizing s with
  | nil => rfl
  | cons op ops ih =>
    obtain ⟨hop, hops⟩ := List.forall_mem_cons.1 h
    rw [performAll_cons, ih _ hops, s.counters_perform hop, samples,
      CounterTable.recordResponses_append]

/-- The tags of an entry are those of one of the four kinds of series. -/
theorem tags_of_mem_recordResponses {rs : List ResponseTime} {c : Counter}
    (h : c ∈ (CounterTable.recordResponses .empty rs).values) :
    ∃ a : ResponseSeries, c.tags = a.tags := by
  obtain ⟨key, hg⟩ := (Table.mem_values_iff _).1 h
  obtain ⟨a, hs, -⟩ := CounterTable.exists_series_of_get? rs hg
  exact ⟨a, congrArg Series.tags hs⟩

/-- Counters that were empty and were fed by responses alone are drained as one
entry for each transaction, one for each status of a transaction and one for each
transaction that failed, each of them counting and adding up exactly its
responses. All other entries have a method, and together they count every
response once. Below `2 ^ 63` responses the counts are those that 64 bits keep. -/
theorem drain_responses (s : Aggregation) (hs : s.counters = .empty) (ops : List Operation)
    (hops : ∀ op ∈ ops, op.onlyResponds) :
    let rs := s.samples ops
    let entries := (s.performAll ops).value.2.drain.value.1.counters
    (∀ t, entries.filter (·.tags = .ofList [⟨"TransactionName", t⟩]) =
      ((ResponseSeries.overall t).summed? (rs.filter (t = ·.transaction))).toList) ∧
    (∀ t (n : UInt16), entries.filter
        (·.tags = .ofList [⟨"HttpStatus", toString n.toNat⟩, ⟨"TransactionName", t⟩]) =
      ((ResponseSeries.byStatus t n).summed?
        (rs.filter fun r => t = r.transaction ∧ n = r.status)).toList) ∧
    (∀ t, entries.filter (·.tags = .ofList [⟨"Errors", "true"⟩, ⟨"TransactionName", t⟩]) =
      ((ResponseSeries.failures t).summed?
        (rs.filter fun r => t = r.transaction ∧ r.failed)).toList) ∧
    (∀ c ∈ entries,
      (∃ t, c.tags = .ofList [⟨"TransactionName", t⟩]) ∨
      (∃ t, ∃ n : UInt16,
        c.tags = .ofList [⟨"HttpStatus", toString n.toNat⟩, ⟨"TransactionName", t⟩]) ∨
      (∃ t, c.tags = .ofList [⟨"Errors", "true"⟩, ⟨"TransactionName", t⟩]) ∨
      c.tags.hasMethod) ∧
    ((entries.filter (·.tags.hasMethod)).map (·.count)).sum = rs.length ∧
    (∀ c ∈ entries, 0 < c.count ∧ c.count ≤ rs.length) ∧
    (rs.length < 2 ^ 63 → ∀ c ∈ entries, c.kept.toInt = c.count) := by
  intro rs entries
  have he : entries = (CounterTable.recordResponses .empty rs).values := by
    have hd : entries = (s.performAll ops).value.2.counters.values := counters_drain _
    rw [hd, s.counters_performAll hops, hs]
  have hv := fun (a : ResponseSeries) (h : a.hasMethod = false) =>
    CounterTable.filter_values_recordResponses rs h
  rw [he]
  refine ⟨?_, ?_, ?_, ?_, CounterTable.sum_hasMethod_recordResponses rs,
    fun c hc => CounterTable.count_bounds rs hc,
    fun hl c hc => CounterTable.toInt_kept_of_length rs hl hc⟩
  · intro t
    simp only [← ResponseTime.overall_mem_series]
    exact hv (.overall t) rfl
  · intro t n
    simp only [← ResponseTime.byStatus_mem_series]
    exact hv (.byStatus t n) rfl
  · intro t
    simp only [← ResponseTime.failures_mem_series]
    exact hv (.failures t) rfl
  · intro c hc
    obtain ⟨a, ha⟩ := tags_of_mem_recordResponses hc
    rw [ha]
    cases a with
    | overall t => exact .inl ⟨t, rfl⟩
    | byMethod t m => exact .inr (.inr (.inr (ResponseSeries.hasMethod_tags _)))
    | byStatus t n => exact .inr (.inl ⟨t, n, rfl⟩)
    | failures t => exact .inr (.inr (.inl ⟨t, rfl⟩))

/-- The second of two requests has no room in the registry and is counted under
the name for those. -/
theorem drain_responses_of_two :
    let s := (Aggregation.new 2 1).value
    let ops : List Operation :=
      [.recordSpan ⟨"a", "", ⟨1500⟩, 200, "GET", false⟩,
        .recordSpan ⟨"b", "", ⟨2500⟩, 500, "GET", true⟩]
    let entries := (s.performAll ops).value.2.drain.value.1.counters
    s.counters = .empty ∧ (∀ op ∈ ops, op.onlyResponds) ∧
      s.samples ops =
        [⟨"a", "GET", 200, false, .ofNat 1500⟩, ⟨"other", "GET", 500, true, .ofNat 2500⟩] ∧
      ((entries.filter (·.tags.hasMethod)).map (·.count)).sum = 2 ∧
      ∀ c ∈ entries, c.kept.toInt = c.count := by
  intro s ops entries
  have hsamples : s.samples ops =
      [⟨"a", "GET", 200, false, .ofNat 1500⟩, ⟨"other", "GET", 500, true, .ofNat 2500⟩] := by
    decide +kernel
  obtain ⟨-, -, -, -, hsum, -, hkept⟩ := drain_responses s rfl ops (by decide)
  rw [hsamples] at hsum hkept
  exact ⟨rfl, by decide, hsamples, hsum, hkept (by decide)⟩

end Aggregation
end SpanMetrics
