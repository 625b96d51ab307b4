import Mathlib
import SpanMetrics.Table

/-!
# What is drained from a table

A drain gives out the values of a table without their keys. These lemmas tie the
values to `get?`: which values there are, which of them belong to one key, and by
how much an update changes a sum over all of them. Updates of one key come to one, and
an update to what is there comes to none.
-/
namespace SpanMetrics.Table

variable {α : Type}

theorem get?_eq_some_iff_mem (t : Table α) {key : String} {a : α} :
    t.get? key = some a ↔ (key, a) ∈ t.entries := by
  obtain ⟨entries, distinct⟩ := t
  simp only [get?]
  induction entries with
  | nil => simp
  | cons e rest ih =>
    obtain ⟨k, b⟩ := e
    obtain ⟨hk, hd⟩ := List.nodup_cons.1 distinct
    rw [List.lookup_cons]
    by_cases h : key = k
    · subst h
      have hn : (key, a) ∉ rest := fun hm => hk (List.mem_map.2 ⟨_, hm, rfl⟩)
      simp [hn, eq_comm]
    · simp [beq_false_of_ne h, h, ih hd]

theorem mem_keys_iff (t : Table α) {key : String} :
    key ∈ t.keys ↔ ∃ a, t.get? key = some a := by
  simp only [get?_eq_some_iff_mem, keys, List.mem_map, Prod.exists]
  constructor
  · rintro ⟨k, a, hm, rfl⟩
    exact ⟨a, hm⟩
  · rintro ⟨a, hm⟩
    exact ⟨key, a, hm, rfl⟩

theorem mem_values_iff (t : Table α) {a : α} : a ∈ t.values ↔ ∃ key, t.get? key = some a := by
  simp only [get?_eq_some_iff_mem, values, List.mem_map, Prod.exists, exists_eq_right]

/-- Values that name their key name the keys. -/
theorem map_values_eq_keys (t : Table α) {f : α → String}
    (h : ∀ key a, t.get? key = some a → f a = key) : t.values.map f = t.keys := by
  rw [values, keys, List.map_map]
  apply List.map_congr_left
  intro e he
  exact h e.1 e.2 (t.get?_eq_some_iff_mem.2 he)

/-- Values that only one key can have are what that key has. -/
theorem filter_values_eq_toList (t : Table α) (p : α → Bool) (key : String)
    (h : ∀ k a, t.get? k = some a → (p a = true ↔ k = key)) :
    t.values.filter p = (t.get? key).toList := by
  simp only [get?_eq_some_iff_mem] at h
  obtain ⟨entries, distinct⟩ := t
  simp only [values, get?] at h ⊢
  induction entries with
  | nil => rfl
  | cons e rest ih =>
    obtain ⟨k, a⟩ := e
    obtain ⟨hk, hd⟩ := List.nodup_cons.1 distinct
    have hrest := ih hd fun k' a' hm => h k' a' (List.mem_cons_of_mem _ hm)
    have ha := h k a List.mem_cons_self
    rw [List.map_cons, List.filter_cons, List.lookup_cons, hrest]
    by_cases he : k = key
    · subst he
      have hnone : rest.lookup k = none := by
        rw [List.lookup_eq_none_iff]
        intro e he
        simpa using fun hek : k = e.1 => hk (List.mem_map.2 ⟨e, he, hek.symm⟩)
      simp [ha, hnone]
    · have hp : p a = false := by simpa [he] using ha
      have hb : (key == k) = false := by simpa using Ne.symm he
      simp [hp, hb]

/-- A table is known up to the order of its keys by what it has for each of them. -/
theorem values_perm (t : Table α) {names : List String} (hn : names.Nodup) (f : String → α)
    (h : ∀ k, t.get? k = if k ∈ names then some (f k) else none) :
    t.values.Perm (names.map f) := by
  have hk : t.keys.Perm names := by
    apply (List.perm_ext_iff_of_nodup t.distinct hn).2
    intro k
    show k ∈ t.keys ↔ k ∈ names
    rw [mem_keys_iff, h]
    split <;> simp [*]
  have hv : t.values = t.keys.map f := by
    rw [values, keys, List.map_map]
    apply List.map_congr_left
    intro e he
    have hg : t.get? e.1 = some e.2 := t.get?_eq_some_iff_mem.2 he
    rw [h] at hg
    split at hg
    · exact (Option.some.inj hg).symm
    · exact absurd hg (by simp)
  rw [hv]
  exact hk.map f

/-- An update changes a sum over the values by what it changes at its key. -/
theorem sum_values_alter (t : Table α) (key : String) (g : Option α → α) (weight : α → Int) :
    ((t.alter key g).values.map weight).sum + ((t.get? key).map weight).getD 0 =
      (t.values.map weight).sum + weight (g (t.get? key)) := by
  obtain ⟨entries, distinct⟩ := t
  simp only [alter, values, get?]
  clear distinct
  induction entries with
  | nil => simp [alterEntries]
  | cons e rest ih =>
    obtain ⟨k, a⟩ := e
    by_cases h : k = key
    · subst h
      simp [alterEntries]
      ring
    · have hb : (key == k) = false := by simpa using Ne.symm h
      simp only [alterEntries, h, if_false, List.map_cons, List.sum_cons, List.lookup_cons, hb]
      omega

/-! ## Updates of one key -/

theorem ext_entries {t u : Table α} (h : t.entries = u.entries) : t = u := by
  cases t
  cases u
  exact (mk.injEq ..).symm ▸ h

theorem alterEntries_alterEntries (key : String) (f g : Option α → α)
    (entries : List (String × α)) :
    alterEntries key g (alterEntries key f entries) =
      alterEntries key (fun a => g (some (f a))) entries := by
  induction entries with
  | nil => simp [alterEntries]
  | cons e rest ih =>
    obtain ⟨k, a⟩ := e
    by_cases h : k = key
    · simp [alterEntries, h]
    · simp [alterEntries, h, ih]

/-- Of two updates of a key the second one sees what the first one left. -/
theorem alter_alter (t : Table α) (key : String) (f g : Option α → α) :
    (t.alter key f).alter key g = t.alter key fun a => g (some (f a)) :=
  ext_entries (alterEntries_alterEntries key f g t.entries)

/-- An update to what is there already changes nothing. -/
theorem alter_of_get? {t : Table α} {key : String} {a : α} (h : t.get? key = some a) :
    t.alter key (fun _ => a) = t := by
  apply ext_entries
  rw [get?] at h
  show alterEntries key _ t.entries = t.entries
  generalize t.entries = entries at h
  induction entries with
  | nil => cases h
  | cons e rest ih =>
    obtain ⟨k, b⟩ := e
    rw [List.lookup_cons] at h
    by_cases hk : k = key
    · subst hk
      rw [beq_self_eq_true] at h
      simp_all [alterEntries]
    · have hb : (key == k) = false := beq_false_of_ne (Ne.symm hk)
      rw [hb] at h
      simpa [alterEntries, hk] using ih h

end SpanMetrics.Table
