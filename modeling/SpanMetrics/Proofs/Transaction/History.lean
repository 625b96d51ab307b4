import SpanMetrics.Proofs.Transaction.Offers
import SpanMetrics.Transaction.History

/-!
# A registry and its history

A registry is known from the calls that were made on it. Only the calls since the
last reset tell its names, its answers and its warnings, and only the calls before
tell its capacity; what is staged within the cycle waits for the next one.
-/
namespace SpanMetrics.Registry

section Steps

variable (r : Registry) (call : Call) (calls : List Call)

theorem performAll_cons :
    r.performAll (call :: calls) =
      ⟨((r.perform call).value.1 :: ((r.perform call).value.2.performAll calls).value.1,
        ((r.perform call).value.2.performAll calls).value.2),
        (r.perform call).events ++ ((r.perform call).value.2.performAll calls).events⟩ := by
  apply Logged.ext
  · rfl
  · simp [performAll]

theorem performAll_append (more : List Call) :
    r.performAll (calls ++ more) =
      ⟨((r.performAll calls).value.1 ++ ((r.performAll calls).value.2.performAll more).value.1,
        ((r.performAll calls).value.2.performAll more).value.2),
        (r.performAll calls).events ++ ((r.performAll calls).value.2.performAll more).events⟩ := by
  induction calls generalizing r with
  | nil => rfl
  | cons call calls ih =>
    rw [List.cons_append, performAll_cons, ih, performAll_cons r call calls]
    simp

theorem perform_offer (name : String) :
    r.perform (.offer name) =
      ⟨(some (r.offer name).value.1, (r.offer name).value.2), (r.offer name).events⟩ := by
  apply Logged.ext
  · rfl
  · simp [perform]

theorem staged_perform :
    (r.perform call).value.2.staged = call.capacity?.getD r.staged := by
  cases call with
  | offer name => exact staged_offer r name
  | stage capacity => rfl
  | reset => rfl

/-- The capacity of the next cycle is the last one that was staged. -/
theorem staged_performAll :
    (r.performAll calls).value.2.staged = capacityAfter r.staged calls := by
  induction calls generalizing r with
  | nil => rfl
  | cons call calls ih =>
    rw [performAll_cons, ih, staged_perform, capacityAfter, capacityAfter]
    cases hc : call.capacity? with
    | none => rw [List.filterMap_cons_none hc, Option.getD_none]
    | some capacity => rw [List.filterMap_cons_some hc, List.getLastD_cons, Option.getD_some]

end Steps

/-- Within a cycle a name is answered by whether it is among the first names of the
whole cycle, and only the first name beyond them is logged. -/
theorem Took.performAll {limit : Nat} {offered : List String} {r : Registry}
    (h : r.Took limit offered) {calls : List Call} (hc : .reset ∉ calls) :
    let names := (offered ++ calls.filterMap Call.name?).eraseDups
    (r.performAll calls).value.2.Took limit (offered ++ calls.filterMap Call.name?) ∧
      (r.performAll calls).value.1 =
        calls.map (fun call => call.name?.map fun name => decide (name ∈ names.take limit)) ∧
      (r.performAll calls).events =
        if offered.eraseDups.length ≤ limit ∧ limit < names.length then [limitNotice limit]
        else [] := by
  induction calls generalizing r offered with
  | nil =>
    rw [List.filterMap_nil, List.append_nil]
    exact ⟨h, rfl, (if_neg (by omega)).symm⟩
  | cons call calls ih =>
    obtain ⟨hne, hrest⟩ := List.ne_and_not_mem_of_not_mem_cons hc
    rw [performAll_cons]
    cases call with
    | offer name =>
      obtain ⟨htook, hanswer, hevents⟩ := h.offer name
      have hall : (offered ++ [name]) ++ calls.filterMap Call.name? =
          offered ++ (Call.offer name :: calls).filterMap Call.name? := by
        simp [Call.name?]
      have hrun := ih htook hrest
      rw [hall] at hrun
      obtain ⟨hr, ha, he⟩ := hrun
      rw [perform_offer]
      refine ⟨hr, ?_, ?_⟩
      · rw [ha, hanswer, List.map_cons, ← hall]
        have hm : name ∈ offered ++ [name] := by simp
        simp only [Call.name?, Option.map_some, mem_take_eraseDups_append hm]
      · have hle := length_eraseDups_append_le offered [name]
        have hle' := length_eraseDups_append_le (offered ++ [name]) (calls.filterMap Call.name?)
        rw [hall] at hle'
        rw [he, hevents]
        -- the sizes only grow, so at most one of the two steps passes the limit
        split <;> split <;> split <;> first | rfl | omega
    | stage capacity =>
      obtain ⟨hr, ha, he⟩ := ih (h.stage capacity) hrest
      exact ⟨hr, congrArg _ ha, he⟩
    | reset => exact absurd rfl hne

/-! ## Cycles -/

theorem closed_append_cycle (calls : List Call) : closed calls ++ cycle calls = calls := by
  rw [closed, cycle, ← List.reverse_append, List.takeWhile_append_dropWhile, List.reverse_reverse]

theorem reset_not_mem_cycle (calls : List Call) : .reset ∉ cycle calls := by
  intro h
  have hp := List.mem_takeWhile_imp (List.mem_reverse.1 h)
  simp at hp

/-- The closed part of a history is empty or ends with a reset. -/
theorem closed_eq (calls : List Call) :
    closed calls = [] ∨ ∃ before, closed calls = before ++ [.reset] := by
  rw [closed]
  cases hd : calls.reverse.dropWhile (· ≠ .reset) with
  | nil => exact .inl rfl
  | cons call rest =>
    have hp := List.head?_dropWhile_not (fun c : Call => decide (c ≠ .reset)) calls.reverse
    rw [hd] at hp
    simp at hp
    exact .inr ⟨rest.reverse, by rw [hp, List.reverse_cons]⟩

/-- A cycle starts with no names and with the capacity that was staged last. -/
theorem performAll_closed (initial : Nat) (calls : List Call) :
    ((new initial).performAll (closed calls)).value.2 =
      new (capacityAfter initial (closed calls)) := by
  rcases closed_eq calls with h | ⟨before, h⟩
  · rw [h]
    rfl
  · have hs : capacityAfter initial (before ++ [.reset]) = capacityAfter initial before := by
      rw [capacityAfter, List.filterMap_append]
      simp [Call.capacity?, capacityAfter]
    rw [h, hs, performAll_append]
    show new ((new initial).performAll before).value.2.staged = _
    rw [staged_performAll]
    rfl

/-- The names of a registry are the first distinct ones of its cycle, as many as the
capacity that was staged last before the cycle. An offer in the cycle is answered
by whether its name is among them, so a name has one answer throughout the cycle.
The registry overflows exactly if the cycle has more distinct names, which is what
the next reset answers, and then the cycle has logged the limit once, and else
nothing. -/
theorem history (initial : Nat) (calls : List Call) :
    let before := (new initial).performAll (closed calls)
    let after := (new initial).performAll calls
    let limit := capacityAfter initial (closed calls)
    let names := offeredNames (cycle calls)
    after.value.2.capacity = limit ∧
      after.value.2.names = names.take limit ∧
      after.value.1 = before.value.1 ++
        (cycle calls).map (fun call => call.name?.map fun name =>
          decide (name ∈ names.take limit)) ∧
      after.value.2.overflow = decide (limit < names.length) ∧
      (after.value.2.perform .reset).value.1 = some (decide (limit < names.length)) ∧
      after.events = before.events ++ if limit < names.length then [limitNotice limit] else [] := by
  intro before after limit names
  obtain ⟨htook, hanswers, hevents⟩ :=
    (took_new limit).performAll (reset_not_mem_cycle calls)
  rw [List.nil_append] at htook hanswers hevents
  have hafter : after =
      ⟨(before.value.1 ++ ((new limit).performAll (cycle calls)).value.1,
        ((new limit).performAll (cycle calls)).value.2),
        before.events ++ ((new limit).performAll (cycle calls)).events⟩ := by
    have ha := performAll_append (new initial) (closed calls) (cycle calls)
    rwa [closed_append_cycle, performAll_closed] at ha
  rw [hafter]
  refine ⟨htook.capacity, htook.names, congrArg _ hanswers, htook.overflow,
    congrArg some htook.overflow, ?_⟩
  rw [hevents]
  simp [names, offeredNames]

end SpanMetrics.Registry
