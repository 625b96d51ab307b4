import SpanMetrics.Proofs.Aggregation.Counts
import SpanMetrics.Proofs.Aggregation.Responses
import SpanMetrics.Proofs.Aggregation.Spans

/-!
# What is counted as overflow

Requests that the registry refuses are counted under a name of its own. The registry
takes any name but the one for requests without a name, so a request may be called
like the refused ones, and then its responses are counted among theirs. How the
requests of a cycle are classified depends on the names of the whole cycle alone:
whether a name is among the first ones is settled when it first comes.
-/
namespace SpanMetrics

namespace CompletedSpan

/-- How a request is classified in a cycle with these requests. -/
def classified (limit : Nat) (spans : List CompletedSpan) (span : CompletedSpan) : Classification :=
  if span.name = Transaction.unknownName then .unknown
  else if span.name ∈ admittedNames limit spans then .named span.name
  else .other

/-- The requests that come after a request do not change how it is classified. -/
theorem classified_append {limit : Nat} {spans : List CompletedSpan} {span : CompletedSpan}
    (h : span ∈ spans) (more : List CompletedSpan) :
    classified limit (spans ++ more) span = classified limit spans span := by
  by_cases hu : span.name = Transaction.unknownName
  · rw [classified, classified, if_pos hu, if_pos hu]
  · have hm : span.name ∈ (spans.map name).filter (· ≠ Transaction.unknownName) := by
      simpa [hu] using ⟨span, h, rfl⟩
    rw [classified, classified, admittedNames, admittedNames, distinctNames, distinctNames,
      List.map_append, List.filter_append]
    simp only [mem_take_eraseDups_append hm]

/-- A request gets the name for the refused ones as its own exactly if it is called so
and the name is among the first ones. -/
theorem mem_classified_named {limit : Nat} {spans : List CompletedSpan} {n : String} :
    .named n ∈ spans.map (classified limit spans) ↔ n ∈ admittedNames limit spans := by
  rw [List.mem_map]
  constructor
  · rintro ⟨span, -, hc⟩
    rw [classified] at hc
    split at hc
    · cases hc
    · split at hc
      · next hm => exact Classification.named.inj hc ▸ hm
      · cases hc
  · intro hm
    obtain ⟨hu, span, hs, rfl⟩ := mem_distinctNames.1 (admittedNames_subset hm)
    exact ⟨span, hs, by rw [classified, if_neg hu, if_pos hm]⟩

end CompletedSpan

namespace Classification

theorem countP_transaction {n : String} (ho : n ≠ Transaction.otherName)
    (hu : n ≠ Transaction.unknownName) (answers : List Classification) :
    answers.countP (·.transaction = n) = answers.count (.named n) := by
  refine List.countP_congr fun c _ => ?_
  rw [decide_eq_true_iff, beq_iff_eq]
  cases c <;> simp [transaction, ho.symm, hu.symm]

/-- Refused requests and those that are called like them are counted together. -/
theorem countP_transaction_other (answers : List Classification) :
    answers.countP (·.transaction = Transaction.otherName) =
      answers.count .other + answers.count (.named Transaction.otherName) := by
  induction answers with
  | nil => rfl
  | cons c rest ih =>
    rw [List.countP_cons, List.count_cons, List.count_cons, ih]
    cases c with
    | named name =>
      by_cases hn : name = Transaction.otherName
      · simp [transaction, hn]
        omega
      · simp [transaction, hn]
    | other =>
      simp [transaction]
      omega
    | unknown => simp [transaction, Transaction.otherName, Transaction.unknownName]

end Classification

open CompletedSpan

namespace Aggregation

/-- How requests are classified, one after the other. -/
def classifications : Aggregation → List CompletedSpan → List Classification
  | _, [] => []
  | s, span :: spans => s.classification span :: (s.recordSpan span).value.classifications spans

variable {p : Precision} {limit : Nat} {s : Aggregation}

/-- All requests of a cycle are classified by the names of the cycle. -/
theorem Gathered.classifications {before : List CompletedSpan} (h : Gathered p limit before s)
    (spans : List CompletedSpan) :
    s.classifications spans = spans.map (classified limit (before ++ spans)) := by
  induction spans generalizing s before with
  | nil => rfl
  | cons span spans ih =>
    have hc : s.classification span = classified limit (before ++ [span]) span :=
      (h.registry.classify span).2
    have hm : span ∈ before ++ [span] := List.mem_append_right _ List.mem_cons_self
    have hr := ih (h.recordSpan span)
    rw [List.append_assoc, List.singleton_append] at hr
    -- the answer to the first request is already the one for the whole cycle
    rw [Aggregation.classifications, hr, hc, ← classified_append hm spans, List.append_assoc,
      List.singleton_append, List.map_cons]

/-- The response of a request is recorded under the transaction as which the request is
classified. -/
theorem samples_recordSpan (s : Aggregation) (spans : List CompletedSpan) :
    s.samples (spans.map .recordSpan) =
      List.zipWith (fun span c => span.response c.transaction) spans (s.classifications spans) := by
  induction spans generalizing s with
  | nil => rfl
  | cons span spans ih => exact congrArg (_ :: ·) (ih (s.recordSpan span).value)

theorem length_samples (s : Aggregation) (spans : List CompletedSpan) :
    (s.samples (spans.map .recordSpan)).length = spans.length := by
  induction spans generalizing s with
  | nil => rfl
  | cons span spans ih => exact congrArg Nat.succ (ih (s.recordSpan span).value)

/-- A request is counted under the transaction as which it is classified. -/
theorem transactions_samples (s : Aggregation) (spans : List CompletedSpan) :
    (s.samples (spans.map .recordSpan)).map (·.transaction) =
      (s.classifications spans).map (·.transaction) := by
  induction spans generalizing s with
  | nil => rfl
  | cons span spans ih =>
    exact congrArg (_ :: ·) (ih (s.recordSpan span).value)

theorem countOf_drain_spans (hs : s.counters = .empty) (spans : List CompletedSpan)
    (transaction : String) :
    Counter.countOf transaction
        (s.performAll (spans.map .recordSpan)).value.2.drain.value.1.counters =
      (s.classifications spans).countP (·.transaction = transaction) := by
  have hops : ∀ op ∈ spans.map Operation.recordSpan, op.onlyResponds :=
    List.forall_mem_map.2 fun _ _ => rfl
  have ht := congrArg (List.countP (· = transaction)) (s.transactions_samples spans)
  rw [List.countP_map, List.countP_map] at ht
  rw [counters_drain, s.counters_performAll hops, hs, CounterTable.countOf_recordResponses]
  exact congrArg Nat.cast ht

/-- Fewer than `2 ^ 63` requests are counted within 64 bits. -/
theorem toInt_kept_drain_spans (hs : s.counters = .empty) {spans : List CompletedSpan}
    (hl : spans.length < 2 ^ 63) {c : Counter}
    (hc : c ∈ (s.performAll (spans.map .recordSpan)).value.2.drain.value.1.counters) :
    c.kept.toInt = c.count := by
  have hops : ∀ op ∈ spans.map Operation.recordSpan, op.onlyResponds :=
    List.forall_mem_map.2 fun _ _ => rfl
  rw [counters_drain, s.counters_performAll hops, hs] at hc
  exact CounterTable.toInt_kept_of_length _ ((s.length_samples spans).symm ▸ hl) hc

/-- The series for refused requests counts those and the requests that the registry
took under the same name. It counts the refused ones alone exactly if this name is not
among the first ones of the cycle. No other name that was taken is counted in the place
of another, and the name for requests without a name is never taken. Below `2 ^ 63`
requests the counts are those that 64 bits keep. -/
theorem count_other_iff (h : Opened p limit s) (spans : List CompletedSpan) :
    let answers := s.classifications spans
    let entries := (s.performAll (spans.map .recordSpan)).value.2.drain.value.1.counters
    Counter.countOf Transaction.otherName entries =
      answers.count .other + answers.count (.named Transaction.otherName) ∧
    (Counter.countOf Transaction.otherName entries = answers.count .other ↔
      Transaction.otherName ∉ admittedNames limit spans) ∧
    (∀ name, name ≠ Transaction.otherName → name ≠ Transaction.unknownName →
      Counter.countOf name entries = answers.count (.named name)) ∧
    .named Transaction.unknownName ∉ answers ∧
    (spans.length < 2 ^ 63 → ∀ c ∈ entries, c.kept.toInt = c.count) := by
  intro answers entries
  have hs : s.counters = .empty := by rw [h.eq]
  have hanswers : answers = spans.map (classified limit spans) := h.gathered.classifications spans
  have hcount := countOf_drain_spans hs spans
  have hother : Counter.countOf Transaction.otherName entries =
      answers.count .other + answers.count (.named Transaction.otherName) := by
    rw [hcount, Classification.countP_transaction_other, Nat.cast_add]
  refine ⟨hother, ?_, fun name ho hu => ?_, ?_, fun hl c hc => toInt_kept_drain_spans hs hl hc⟩
  · rw [hother, ← mem_classified_named, ← hanswers, ← List.count_eq_zero]
    omega
  · rw [hcount, Classification.countP_transaction ho hu]
  · rw [hanswers, mem_classified_named]
    exact fun hm => unknownName_not_mem spans (admittedNames_subset hm)

/-- With room for one name the other two requests are refused, and one of them is called
like the refused ones. -/
theorem count_other_of_three :
    let s := (Aggregation.new 2 1).value
    let spans : List CompletedSpan :=
      [⟨"a", "", ⟨1500000⟩, 200, "GET", false⟩, ⟨"other", "", ⟨1500000⟩, 200, "GET", false⟩,
        ⟨"", "/b", ⟨2500000⟩, 500, "GET", true⟩]
    Opened 2 1 s ∧ Transaction.otherName ∉ admittedNames 1 spans ∧
      s.classifications spans = [.named "a", .other, .other] ∧
      Counter.countOf "other"
        (s.performAll (spans.map .recordSpan)).value.2.drain.value.1.counters = 2 := by
  intro s spans
  have hs : Opened 2 1 s := .created 2 1
  have hm : Transaction.otherName ∉ admittedNames 1 spans := by decide +kernel
  have hc : s.classifications spans = [.named "a", .other, .other] := by decide +kernel
  refine ⟨hs, hm, hc, ?_⟩
  have hcount := (count_other_iff hs spans).2.1.2 hm
  rw [hc] at hcount
  exact hcount

/-- A request that is called like the refused ones and comes first is counted with the
one that is refused after it. -/
theorem named_other_counted_as_refused :
    ¬∀ (requested capacity : Nat) (spans : List CompletedSpan),
      let s := (new requested capacity).value
      Counter.countOf Transaction.otherName
        (s.performAll (spans.map .recordSpan)).value.2.drain.value.1.counters =
      (s.classifications spans).count .other := by
  intro h
  have hcount := h 2 1
    [⟨"other", "", ⟨1500000⟩, 200, "GET", false⟩, ⟨"b", "", ⟨2500000⟩, 200, "GET", false⟩]
  exact absurd hcount (by decide +kernel)

end Aggregation
end SpanMetrics
