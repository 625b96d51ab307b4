import SpanMetrics.Proofs.Text.Utf8
import SpanMetrics.Tag.Arrangement

/-!
# Searching tags by halves

In an increasing list the search ends at the tag or at its place: all tags before
that place come before it, and all others after it. What carries this through the
halving is `Halving`: beyond the places that are left all tags come after the one
that is looked for, and the first place that is left has none that does, unless
nothing was excluded below it.
-/
namespace SpanMetrics.Tag

/-! ## Order -/

theorem precedes_iff (a b : Tag) : a.precedes b ↔ a.before b := by
  rw [precedes, before, Text.utf8_lt_utf8, Text.utf8_lt_utf8]

theorem before_asymm {a b : Tag} (h : a.before b) : ¬b.before a :=
  fun h' => a.before_irrefl (before_trans h h')

theorem not_before_iff {a b : Tag} : ¬a.before b ↔ a = b ∨ b.before a := by
  constructor
  · intro h
    rcases before_or_eq_or_after a b with hab | he | hba
    · exact absurd hab h
    · exact .inl he
    · exact .inr hba
  · rintro (rfl | h)
    · exact before_irrefl a
    · exact before_asymm h

variable {tags : List Tag} {tag : Tag}

/-- In an increasing list, what comes after a tag does so from some place on. -/
theorem before_of_le (hs : tags.Pairwise before) {i j : Nat} (hij : i ≤ j) {a b : Tag}
    (ha : tags[i]? = some a) (hb : tags[j]? = some b) (h : tag.before a) : tag.before b := by
  obtain ⟨hi, rfl⟩ := List.getElem?_eq_some_iff.1 ha
  obtain ⟨hj, rfl⟩ := List.getElem?_eq_some_iff.1 hb
  rcases Nat.eq_or_lt_of_le hij with rfl | hlt
  · exact h
  · exact before_trans h (List.pairwise_iff_getElem.1 hs i j hi hj hlt)

/-! ## Halving -/

/-- Places `start` to `start + size` are left, and nothing that was excluded matters. -/
structure Halving (tags : List Tag) (tag : Tag) (start size : Nat) : Prop where
  left : 0 < size
  inside : start + size ≤ tags.length
  beyond : ∀ i other, start + size ≤ i → tags[i]? = some other → tag.before other
  below : start ≠ 0 → ∀ other, tags[start]? = some other → ¬tag.before other

variable {start size : Nat}

theorem Halving.keep (hs : tags.Pairwise before) (h : Halving tags tag start size)
    (hsize : 1 < size) {middle : Tag} (hm : tags[start + size / 2]? = some middle)
    (hb : tag.before middle) : Halving tags tag start (size - size / 2) where
  left := by omega
  inside := by have hi := h.inside; omega
  beyond i other hi ho := before_of_le hs (by omega) hm ho hb
  below := h.below

theorem Halving.move (h : Halving tags tag start size) (hsize : 1 < size) {middle : Tag}
    (hm : tags[start + size / 2]? = some middle) (hb : ¬tag.before middle) :
    Halving tags tag (start + size / 2) (size - size / 2) where
  left := by omega
  inside := by have hi := h.inside; omega
  beyond i other hi ho := h.beyond i other (by omega) ho
  below _ other ho := by
    obtain rfl := Option.some.inj (hm.symm.trans ho)
    exact hb

/-- One place is left in the end. -/
theorem Halving.halve (hs : tags.Pairwise before) (h : Halving tags tag start size) :
    Halving tags tag (halve tags tag start size) 1 := by
  induction start, size using halve.induct tags tag with
  | case1 start size hle =>
    have hone : size = 1 := by have hl := h.left; omega
    rw [Tag.halve, if_pos hle]
    exact hone ▸ h
  | case2 start size hgt middle hany ih =>
    obtain ⟨other, hm, hb⟩ := (Option.any_eq_true _ _).1 hany
    rw [Tag.halve, if_neg hgt, if_pos hany]
    rw [decide_eq_true_eq, precedes_iff] at hb
    exact ih (h.keep hs (by omega) hm hb)
  | case3 start size hgt middle hany ih =>
    have hlt : start + size / 2 < tags.length := by have hi := h.inside; omega
    have hm : tags[start + size / 2]? = some tags[start + size / 2] :=
      List.getElem?_eq_getElem hlt
    have hb : ¬tag.before tags[start + size / 2] := by
      intro hb
      exact hany (by rw [hm]; simpa [precedes_iff] using hb)
    rw [Tag.halve, if_neg hgt, if_neg hany]
    exact ih (h.move (by omega) hm hb)

/-! ## Searching -/

/-- All tags before a place come before a tag, and all others after it. -/
structure Fits (tags : List Tag) (tag : Tag) (place : Nat) : Prop where
  below : ∀ other ∈ tags.take place, other.before tag
  above : ∀ other ∈ tags.drop place, tag.before other

theorem fits_succ (hs : tags.Pairwise before) {place : Nat} (h : Halving tags tag place 1)
    {other : Tag} (ho : tags[place]? = some other) (hb : other.before tag) :
    Fits tags tag (place + 1) where
  below := by
    intro first hf
    obtain ⟨i, hi, rfl⟩ := List.mem_take_iff_getElem.1 hf
    obtain ⟨hp, rfl⟩ := List.getElem?_eq_some_iff.1 ho
    rcases Nat.eq_or_lt_of_le (Nat.le_of_lt_succ (Nat.lt_of_lt_of_le hi (Nat.min_le_left _ _)))
      with rfl | hlt
    · exact hb
    · exact before_trans (List.pairwise_iff_getElem.1 hs i place _ hp hlt) hb
  above := by
    intro last hl
    obtain ⟨j, hj, rfl⟩ := List.mem_drop_iff_getElem.1 hl
    exact h.beyond _ _ (Nat.le_add_right _ _) (List.getElem?_eq_getElem _)

/-- No place below the one that is left was excluded if its tag comes after. -/
theorem fits_zero {place : Nat} (h : Halving tags tag place 1) {other : Tag}
    (ho : tags[place]? = some other) (hb : tag.before other) :
    place = 0 ∧ Fits tags tag 0 := by
  have hz : place = 0 := by
    by_contra hne
    exact h.below hne other ho hb
  subst hz
  refine ⟨rfl, ⟨by simp, fun last hl => ?_⟩⟩
  obtain ⟨j, hj, rfl⟩ := List.mem_drop_iff_getElem.1 hl
  rcases Nat.eq_zero_or_pos j with rfl | hpos
  · obtain ⟨hlt, rfl⟩ := List.getElem?_eq_some_iff.1 ho
    exact hb
  · exact h.beyond (0 + j) _ (by omega) (List.getElem?_eq_getElem _)

/-- The search finds the tag or the place for it. -/
theorem search_cases (hs : tags.Pairwise before) (tag : Tag) :
    (∃ place, search tags tag = .ok place ∧ tags[place]? = some tag) ∨
      ∃ place, search tags tag = .error place ∧ Fits tags tag place := by
  by_cases hn : tags = []
  · subst hn
    exact .inr ⟨_, rfl, ⟨by simp, by simp⟩⟩
  · have hstart : Halving tags tag 0 tags.length :=
      ⟨List.length_pos_of_ne_nil hn, by omega, fun i other hi ho => by simp_all,
        fun h => absurd rfl h⟩
    have hend := hstart.halve hs
    rw [search]
    generalize halve tags tag 0 tags.length = place at hend ⊢
    have hp : place < tags.length := by have hi := hend.inside; omega
    have ho := List.getElem?_eq_getElem hp
    simp only [ho, precedes_iff]
    split
    · next he => exact .inl ⟨place, rfl, by rw [ho, he]⟩
    · next he =>
      split
      · next hb => exact .inr ⟨place + 1, rfl, fits_succ hs hend ho hb⟩
      · next hb =>
        have hafter := (not_before_iff.1 hb).resolve_left he
        obtain ⟨rfl, hfits⟩ := fits_zero hend ho hafter
        exact .inr ⟨0, rfl, hfits⟩

end SpanMetrics.Tag
