import SpanMetrics.Proofs.List.Distinct
import SpanMetrics.Transaction.Registry

/-!
# Names that were offered

What a registry holds after names were offered to it in a cycle: the first distinct
ones, as many as its capacity. It overflows with the first name beyond them, which
is also the only one whose refusal is logged.
-/
namespace SpanMetrics.Registry

/-- The registry after names were offered to it in a cycle. -/
structure Took (limit : Nat) (offered : List String) (r : Registry) : Prop where
  names : r.names = offered.eraseDups.take limit
  capacity : r.capacity = limit
  overflow : r.overflow = decide (limit < offered.eraseDups.length)

variable {limit : Nat} {offered : List String} {r : Registry}

theorem took_new (limit : Nat) : (new limit).Took limit [] :=
  ⟨by simp [new], rfl, by simp [new]⟩

theorem Took.stage (h : r.Took limit offered) (next : Nat) : (r.stage next).Took limit offered :=
  ⟨h.names, h.capacity, h.overflow⟩

theorem offer_eq (r : Registry) (name : String) :
    r.offer name =
      if name ∈ r.names then ⟨(true, r), []⟩
      else if r.names.length < r.capacity then ⟨(true, { r with names := r.names ++ [name] }), []⟩
      else ⟨(false, { r with overflow := true }),
        if r.overflow then [] else [limitNotice r.capacity]⟩ := by
  unfold offer
  split
  · rfl
  · split
    · rfl
    · cases r.overflow <;> rfl

theorem staged_offer (r : Registry) (name : String) : (r.offer name).value.2.staged = r.staged := by
  rw [offer_eq]
  split
  · rfl
  · split <;> rfl

theorem Took.length (h : r.Took limit offered) :
    r.names.length < r.capacity ↔ offered.eraseDups.length < limit := by
  rw [h.names, h.capacity, List.length_take]
  omega

/-- A name that was offered before changes nothing: it is registered, or it stands
behind the first names and the registry has overflowed already. -/
theorem Took.offer_of_mem (h : r.Took limit offered) {name : String} (hn : name ∈ offered) :
    r.offer name = ⟨(decide (name ∈ offered.eraseDups.take limit), r), []⟩ := by
  rw [offer_eq, ← h.names]
  split
  · next ht => rw [decide_eq_true ht]
  · next ht =>
    have hlt : limit < offered.eraseDups.length := by
      by_contra hle
      rw [h.names, List.take_of_length_le (Nat.le_of_not_lt hle)] at ht
      exact ht (List.mem_eraseDups.2 hn)
    have ho : r.overflow = true := h.overflow.trans (decide_eq_true hlt)
    rw [if_neg (by rw [h.length]; omega), decide_eq_false ht, if_pos ho, ← ho]

/-- A name that was not offered before is taken while there is room. The first one
without room is logged. -/
theorem Took.offer_of_not_mem (h : r.Took limit offered) {name : String} (hn : name ∉ offered) :
    r.offer name =
      if offered.eraseDups.length < limit
      then ⟨(true, { r with names := offered.eraseDups ++ [name] }), []⟩
      else ⟨(false, { r with overflow := true }),
        if offered.eraseDups.length = limit then [limitNotice limit] else []⟩ := by
  have ht : name ∉ offered.eraseDups.take limit := fun hm =>
    hn (List.mem_eraseDups.1 (List.mem_of_mem_take hm))
  rw [offer_eq, if_neg (by rwa [h.names])]
  simp only [h.length]
  split
  · next hlt => rw [h.names, List.take_of_length_le hlt.le]
  · next hge =>
    have ho : r.overflow = true ↔ ¬offered.eraseDups.length = limit := by
      rw [h.overflow, decide_eq_true_iff]
      omega
    simp only [ho, h.capacity, ite_not]

/-- An offer is answered by whether the name is among the first ones afterwards, and
logged if it is the one with which the registry overflows. -/
theorem Took.offer (h : r.Took limit offered) (name : String) :
    (r.offer name).value.2.Took limit (offered ++ [name]) ∧
      (r.offer name).value.1 = decide (name ∈ (offered ++ [name]).eraseDups.take limit) ∧
      (r.offer name).events =
        if offered.eraseDups.length ≤ limit ∧ limit < (offered ++ [name]).eraseDups.length
        then [limitNotice limit] else [] := by
  rw [eraseDups_concat]
  by_cases hm : name ∈ offered
  · have hd : (offered ++ [name]).eraseDups = offered.eraseDups := by
      rw [eraseDups_concat, if_pos hm]
    rw [h.offer_of_mem hm, if_pos hm]
    refine ⟨⟨?_, h.capacity, ?_⟩, rfl, (if_neg (by omega)).symm⟩
    · rw [hd]
      exact h.names
    · rw [hd]
      exact h.overflow
  · have hd : (offered ++ [name]).eraseDups = offered.eraseDups ++ [name] := by
      rw [eraseDups_concat, if_neg hm]
    have hl : (offered.eraseDups ++ [name]).length = offered.eraseDups.length + 1 := by simp
    rw [h.offer_of_not_mem hm, if_neg hm, hl]
    split
    · next hlt =>
      have htake : (offered.eraseDups ++ [name]).take limit = offered.eraseDups ++ [name] :=
        List.take_of_length_le (by omega)
      refine ⟨⟨?_, h.capacity, ?_⟩, ?_, (if_neg (by omega)).symm⟩
      · rw [hd, htake]
      · rw [hd, hl, h.overflow, decide_eq_false (by omega), decide_eq_false (by omega)]
      · rw [htake]
        simp
    · next hge =>
      have htake : (offered.eraseDups ++ [name]).take limit = offered.eraseDups.take limit :=
        List.take_append_of_le_length (by omega)
      refine ⟨⟨?_, h.capacity, ?_⟩, ?_, ?_⟩
      · rw [hd, htake]
        exact h.names
      · rw [hd, hl, decide_eq_true (by omega)]
      · rw [htake, decide_eq_false fun ht => hm (List.mem_eraseDups.1 (List.mem_of_mem_take ht))]
      · by_cases he : offered.eraseDups.length = limit
        · rw [if_pos he, if_pos (by omega)]
        · rw [if_neg he, if_neg (by omega)]

end SpanMetrics.Registry
