import SpanMetrics.Aggregation.State
import SpanMetrics.Proofs.Transaction.Offers
import SpanMetrics.Proofs.Transaction.Path

/-!
# Names of a cycle

Which names the registry holds after requests alone were classified: the first
distinct ones, as many as its capacity. A request without a name never counts
among them, and no name is empty, so none of them is taken for the overall series.
-/
namespace SpanMetrics

namespace Transaction

theorem derived_ne_empty (transaction path : String) : derived transaction path ≠ "" := by
  rw [derived, derived?]
  split
  · next h => exact h
  · split
    · next h => exact (heads_ofPath h).1.ne_empty h
    · exact (by decide : unknownName ≠ "")

end Transaction

namespace CompletedSpan

/-- The name that a request would be counted under if there were room for it. -/
def name (span : CompletedSpan) : String := Transaction.derived span.transaction span.path

/-- The names of requests, each where it appears first. -/
def distinctNames (spans : List CompletedSpan) : List String :=
  ((spans.map name).filter (· ≠ Transaction.unknownName)).eraseDups

theorem mem_distinctNames {spans : List CompletedSpan} {n : String} :
    n ∈ distinctNames spans ↔ n ≠ Transaction.unknownName ∧ ∃ span ∈ spans, span.name = n := by
  simp [distinctNames, and_comm]

@[simp] theorem distinctNames_nil : distinctNames [] = [] := rfl

/-- A name is appended when a request first has it. -/
theorem distinctNames_append (spans : List CompletedSpan) (span : CompletedSpan) :
    distinctNames (spans ++ [span]) =
      if span.name = Transaction.unknownName ∨ span.name ∈ distinctNames spans
      then distinctNames spans else distinctNames spans ++ [span.name] := by
  by_cases hu : span.name = Transaction.unknownName
  · simp [distinctNames, hu]
  · have hm : span.name ∈ distinctNames spans ↔
        span.name ∈ (spans.map name).filter (· ≠ Transaction.unknownName) := by
      rw [distinctNames, List.mem_eraseDups]
    have hf : ([span].map name).filter (· ≠ Transaction.unknownName) = [span.name] := by
      simp [hu]
    simp only [hu, false_or, hm]
    rw [distinctNames, List.map_append, List.filter_append, hf, eraseDups_concat]
    rfl

theorem nodup_distinctNames (spans : List CompletedSpan) : (distinctNames spans).Nodup :=
  nodup_eraseDups _

theorem unknownName_not_mem (spans : List CompletedSpan) :
    Transaction.unknownName ∉ distinctNames spans := fun h => (mem_distinctNames.1 h).1 rfl

theorem empty_not_mem (spans : List CompletedSpan) : "" ∉ distinctNames spans := by
  intro h
  obtain ⟨-, span, -, hs⟩ := mem_distinctNames.1 h
  exact Transaction.derived_ne_empty _ _ hs

theorem distinctNames_perm {spans others : List CompletedSpan} (h : spans.Perm others) :
    (distinctNames spans).Perm (distinctNames others) :=
  perm_eraseDups ((h.map name).filter _)

/-- The names that a registry takes of requests: the first ones, while it has room. -/
def admittedNames (capacity : Nat) (spans : List CompletedSpan) : List String :=
  (distinctNames spans).take capacity

end CompletedSpan

open CompletedSpan

/-- The registry after requests alone. -/
structure Registry.Admits (limit : Nat) (spans : List CompletedSpan) (r : Registry) : Prop where
  names : r.names = admittedNames limit spans
  capacity : r.capacity = limit
  overflow : r.overflow = decide (limit < (distinctNames spans).length)

namespace Registry

/-- A request offers its name unless it has none. -/
theorem admits_iff_took {limit : Nat} {spans : List CompletedSpan} {r : Registry} :
    r.Admits limit spans ↔
      r.Took limit ((spans.map name).filter (· ≠ Transaction.unknownName)) :=
  ⟨fun h => ⟨h.names, h.capacity, h.overflow⟩, fun h => ⟨h.names, h.capacity, h.overflow⟩⟩

theorem admits_new (capacity : Nat) : (new capacity).Admits capacity [] :=
  admits_iff_took.2 (took_new capacity)

theorem Admits.stage {capacity : Nat} {spans : List CompletedSpan} {r : Registry}
    (h : r.Admits capacity spans) (next : Nat) : (r.stage next).Admits capacity spans :=
  admits_iff_took.2 ((admits_iff_took.1 h).stage next)

theorem value_classify (r : Registry) (span : CompletedSpan) :
    (r.classify span.transaction span.path).value =
      if span.name = Transaction.unknownName then (.unknown, r)
      else (if (r.offer span.name).value.1 then .named span.name else .other,
        (r.offer span.name).value.2) := by
  unfold Registry.classify
  show (if span.name = Transaction.unknownName then _ else _ : Logged _).value = _
  split <;> rfl

/-- A request has no name, or a name that the registry has, or one for which there is
room, or one that is refused. -/
theorem classify_cases (r : Registry) (span : CompletedSpan) :
    (r.classify span.transaction span.path).value = (.unknown, r) ∨
      (span.name ∈ r.names ∧
        (r.classify span.transaction span.path).value = (.named span.name, r)) ∨
      (r.names.length < r.capacity ∧
        (r.classify span.transaction span.path).value =
          (.named span.name, { r with names := r.names ++ [span.name] })) ∨
      (r.classify span.transaction span.path).value = (.other, { r with overflow := true }) := by
  rw [value_classify, offer_eq]
  split
  · exact .inl rfl
  · split
    · next hm => exact .inr (.inl ⟨hm, rfl⟩)
    · split
      · next hl => exact .inr (.inr (.inl ⟨hl, rfl⟩))
      · exact .inr (.inr (.inr rfl))

/-- The name that a request is counted under is its own. -/
theorem eq_name_of_classify {r : Registry} {span : CompletedSpan} {name : String}
    (h : (r.classify span.transaction span.path).value.1 = .named name) : name = span.name := by
  rcases r.classify_cases span with hc | ⟨-, hc⟩ | ⟨-, hc⟩ | hc
  · rw [hc] at h
    cases h
  · rw [hc] at h
    exact (Classification.named.inj h).symm
  · rw [hc] at h
    exact (Classification.named.inj h).symm
  · rw [hc] at h
    cases h

/-- A registry takes the name under which it has a request counted, and no name beyond
its capacity. -/
theorem classify_takes (r : Registry) (span : CompletedSpan) (h : r.names.length ≤ r.capacity) :
    let answer := (r.classify span.transaction span.path).value
    answer.2.capacity = r.capacity ∧ answer.2.staged = r.staged ∧ r.names ⊆ answer.2.names ∧
      answer.2.names.length ≤ r.capacity ∧
      ∀ name, answer.1 = .named name → name ∈ answer.2.names := by
  intro answer
  have ha : answer = (r.classify span.transaction span.path).value := rfl
  clear_value answer
  rcases r.classify_cases span with hc | ⟨hm, hc⟩ | ⟨hl, hc⟩ | hc <;> obtain rfl := ha.trans hc
  · exact ⟨rfl, rfl, List.Subset.refl _, h, fun name he => nomatch he⟩
  · exact ⟨rfl, rfl, List.Subset.refl _, h, fun name he => Classification.named.inj he ▸ hm⟩
  · refine ⟨rfl, rfl, List.subset_append_left _ _, ?_, fun name he => ?_⟩
    · rw [List.length_append, List.length_singleton]
      exact hl
    · exact Classification.named.inj he ▸ List.mem_append_right _ List.mem_cons_self
  · exact ⟨rfl, rfl, List.Subset.refl _, h, fun name he => nomatch he⟩

/-- Only at the end of a cycle the staged capacity matters. -/
theorem staged_classify (r : Registry) (transaction path : String) :
    (r.classify transaction path).value.2.staged = r.staged := by
  have hc : (r.classify transaction path).value =
      if Transaction.derived transaction path = Transaction.unknownName then (.unknown, r)
      else _ := value_classify r ⟨transaction, path, ⟨0⟩, 0, "", false⟩
  rw [hc]
  split
  · rfl
  · exact staged_offer r _

/-- A request is counted under its own name exactly if the name is among the
first ones afterwards. -/
theorem Admits.classify {limit : Nat} {spans : List CompletedSpan} {r : Registry}
    (h : r.Admits limit spans) (span : CompletedSpan) :
    (r.classify span.transaction span.path).value.2.Admits limit (spans ++ [span]) ∧
      (r.classify span.transaction span.path).value.1 =
        if span.name = Transaction.unknownName then .unknown
        else if span.name ∈ admittedNames limit (spans ++ [span]) then .named span.name
        else .other := by
  rw [admits_iff_took, value_classify, admittedNames, distinctNames, List.map_append,
    List.filter_append]
  by_cases hu : span.name = Transaction.unknownName
  · have hf : ([span].map name).filter (· ≠ Transaction.unknownName) = [] := by simp [hu]
    rw [if_pos hu, if_pos hu, hf, List.append_nil]
    exact ⟨admits_iff_took.1 h, rfl⟩
  · have hf : ([span].map name).filter (· ≠ Transaction.unknownName) = [span.name] := by
      simp [hu]
    obtain ⟨htook, hanswer, -⟩ := (admits_iff_took.1 h).offer span.name
    rw [if_neg hu, if_neg hu, hf, hanswer]
    refine ⟨htook, ?_⟩
    simp only [decide_eq_true_eq]

end Registry
end SpanMetrics
