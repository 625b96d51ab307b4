import Mathlib

/-!
# Distinct items

The distinct items of a list, each where it appears first, and the first of them.
A list that goes on does not change which items are the first ones, and an item
that was there keeps its place.
-/
namespace SpanMetrics

variable {α : Type} [DecidableEq α]

theorem eraseDups_concat (items : List α) (a : α) :
    (items ++ [a]).eraseDups = if a ∈ items then items.eraseDups else items.eraseDups ++ [a] := by
  rw [List.eraseDups_append]
  by_cases h : a ∈ items <;> simp [List.removeAll, List.eraseDups_cons, h]

theorem nodup_eraseDups (items : List α) : items.eraseDups.Nodup := by
  induction items using List.reverseRecOn with
  | nil => exact List.nodup_nil
  | append_singleton items a ih =>
    rw [eraseDups_concat]
    split
    · exact ih
    · next h =>
      refine List.nodup_append.2 ⟨ih, List.nodup_singleton a, fun b hb c hc he => h ?_⟩
      rw [← List.mem_singleton.1 hc, ← he]
      exact List.mem_eraseDups.1 hb

theorem eraseDups_sublist (items : List α) : items.eraseDups.Sublist items := by
  induction items using List.reverseRecOn with
  | nil => exact .refl []
  | append_singleton items a ih =>
    rw [eraseDups_concat]
    split
    · exact ih.trans (List.sublist_append_left items [a])
    · exact ih.append (.refl [a])

/-- The order of a list decides the order of its distinct items and nothing else. -/
theorem perm_eraseDups {items others : List α} (h : items.Perm others) :
    items.eraseDups.Perm others.eraseDups := by
  apply (List.perm_ext_iff_of_nodup (nodup_eraseDups items) (nodup_eraseDups others)).2
  intro a
  rw [List.mem_eraseDups, List.mem_eraseDups]
  exact h.mem_iff

/-- Whether an item is among the first ones is settled when it appears. -/
theorem mem_take_eraseDups_append {items : List α} {a : α} (h : a ∈ items) (more : List α)
    (limit : Nat) :
    a ∈ (items ++ more).eraseDups.take limit ↔ a ∈ items.eraseDups.take limit := by
  rw [List.eraseDups_append, List.take_append, List.mem_append]
  constructor
  · rintro (hm | hm)
    · exact hm
    · have hr := List.mem_eraseDups.1 (List.mem_of_mem_take hm)
      simp [List.removeAll, h] at hr
  · exact .inl

/-- The first item with a property is the first of the distinct ones. -/
theorem find?_eraseDups (p : α → Bool) (items : List α) :
    items.eraseDups.find? p = items.find? p := by
  induction items using List.reverseRecOn with
  | nil => rfl
  | append_singleton items a ih =>
    rw [eraseDups_concat, List.find?_append]
    split
    · next h =>
      rw [ih]
      by_cases hp : p a
      · have hs : (items.find? p).isSome := List.find?_isSome.2 ⟨a, h, hp⟩
        rw [Option.or_of_isSome hs]
      · rw [List.find?_singleton, if_neg hp, Option.or_none]
    · rw [List.find?_append, ih]

theorem length_eraseDups_append_le (items more : List α) :
    items.eraseDups.length ≤ (items ++ more).eraseDups.length := by
  rw [List.eraseDups_append, List.length_append]
  exact Nat.le_add_right _ _

end SpanMetrics
