import SpanMetrics.Proofs.Tag.Search

/-!
# One list for every set of tags

A tag set is given by the tags that are in it: an increasing list has no second
arrangement. So sorting, leaving out repetitions and inserting tag after tag give
the same set in any order, and a search from its beginning finds the least tag with
a property.
-/
namespace SpanMetrics

theorem Tag.nodup_of_increasing {tags : List Tag} (h : tags.Pairwise before) : tags.Nodup := by
  apply h.imp
  intro tag other hb he
  exact tag.before_irrefl (he ▸ hb)

/-- Increasing lists with the same tags are equal. -/
theorem Tag.eq_of_mem_iff {as bs : List Tag} (ha : as.Pairwise before) (hb : bs.Pairwise before)
    (h : ∀ tag, tag ∈ as ↔ tag ∈ bs) : as = bs := by
  have hperm : as.Perm bs :=
    (List.perm_ext_iff_of_nodup (nodup_of_increasing ha) (nodup_of_increasing hb)).2 h
  exact hperm.eq_of_pairwise (fun _ _ _ _ hab hba => absurd hba (before_asymm hab)) ha hb

namespace TagSet

variable (tags : TagSet)

theorem ext_mem {a b : TagSet} (h : ∀ tag, tag ∈ a.toList ↔ tag ∈ b.toList) : a = b :=
  ext_toList (Tag.eq_of_mem_iff a.increasing b.increasing h)

theorem mem_insert {tag other : Tag} :
    other ∈ (tags.insert tag).toList ↔ other = tag ∨ other ∈ tags.toList :=
  mem_place

theorem mem_foldl_insert (additions : List Tag) {tag : Tag} :
    tag ∈ (additions.foldl insert tags).toList ↔ tag ∈ tags.toList ∨ tag ∈ additions := by
  induction additions generalizing tags with
  | nil => simp
  | cons first additions ih =>
    rw [List.foldl_cons, ih, mem_insert, List.mem_cons, or_assoc, or_left_comm]

theorem mem_ofList {given : List Tag} {tag : Tag} :
    tag ∈ (ofList given).toList ↔ tag ∈ given := by
  rw [ofList, mem_foldl_insert, empty, List.mem_nil_iff, false_or]

/-- Everything that was supplied is there, whether at first or later. -/
theorem mem_supplied (pairs additions : List Tag) {tag : Tag} :
    tag ∈ (additions.foldl insert (ofList pairs)).toList ↔ tag ∈ pairs ++ additions := by
  rw [mem_foldl_insert, mem_ofList, List.mem_append]

/-- The first tag with a property is the least one with it. -/
theorem find?_eq_some_iff (p : Tag → Bool) (tag : Tag) :
    tags.toList.find? p = some tag ↔ tag ∈ tags.toList ∧ p tag ∧
      ∀ other ∈ tags.toList, p other → other = tag ∨ tag.before other := by
  have hleast : ∀ {found}, tags.toList.find? p = some found →
      ∀ other ∈ tags.toList, p other → other = found ∨ found.before other := by
    intro found hf other ho hp
    obtain ⟨-, earlier, later, hl, hnone⟩ := List.find?_eq_some_iff_append.1 hf
    have hs := tags.increasing
    rw [hl] at ho hs
    rcases List.mem_append.1 ho with hmem | hmem
    · exact absurd hp (by simpa using hnone other hmem)
    · refine (List.mem_cons.1 hmem).imp_right fun hmem => ?_
      exact (List.pairwise_cons.1 (List.pairwise_append.1 hs).2.1).1 other hmem
  constructor
  · intro h
    exact ⟨List.mem_of_find?_eq_some h, List.find?_some h, hleast h⟩
  · rintro ⟨hm, hp, hother⟩
    obtain ⟨found, hf⟩ := Option.isSome_iff_exists.1 (List.find?_isSome.2 ⟨tag, hm, hp⟩)
    rcases hother found (List.mem_of_find?_eq_some hf) (List.find?_some hf) with rfl | hb
    · exact hf
    · rcases hleast hf tag hm hp with rfl | hb'
      · exact hf
      · exact absurd hb (Tag.before_asymm hb')

theorem get?_eq_some_iff (name value : String) :
    tags.get? name = some value ↔ ⟨name, value⟩ ∈ tags.toList ∧
      ∀ other, ⟨name, other⟩ ∈ tags.toList → value ≤ other := by
  rw [get?, Option.map_eq_some_iff]
  simp only [find?_eq_some_iff, decide_eq_true_eq]
  constructor
  · rintro ⟨tag, ⟨hm, rfl, hleast⟩, rfl⟩
    refine ⟨hm, fun other ho => ?_⟩
    rcases hleast _ ho rfl with he | hb | ⟨-, hb⟩
    · exact (congrArg Tag.value he).ge
    · exact absurd hb (String.lt_irrefl _)
    · exact hb.le
  · rintro ⟨hm, hleast⟩
    refine ⟨⟨name, value⟩, ⟨hm, rfl, ?_⟩, rfl⟩
    rintro ⟨_, other⟩ ho rfl
    rcases (hleast other ho).lt_or_eq with hlt | rfl
    · exact .inr (.inr ⟨rfl, hlt⟩)
    · exact .inl rfl

theorem get?_eq_none_iff (name : String) :
    tags.get? name = none ↔ ∀ value, ⟨name, value⟩ ∉ tags.toList := by
  rw [get?, Option.map_eq_none_iff, List.find?_eq_none]
  simp only [decide_eq_true_eq]
  constructor
  · intro h value hm
    exact h _ hm rfl
  · rintro h ⟨_, value⟩ hm rfl
    exact h value hm

/-! ## Step by step -/

/-- A tag is added at the place where the search ends. -/
theorem toList_insert (tag : Tag) : (tags.insert tag).toList = Tag.add tags.toList tag := by
  have hs := tags.increasing
  rw [Tag.add]
  rcases Tag.search_cases hs tag with ⟨place, hsearch, hat⟩ | ⟨place, hsearch, hfits⟩
  · rw [hsearch]
    refine Tag.eq_of_mem_iff (tags.insert tag).increasing hs fun other => ?_
    rw [mem_insert, or_iff_right_iff_imp]
    rintro rfl
    exact List.mem_of_getElem? hat
  · rw [hsearch]
    have hsplit : tags.toList.take place ++ tags.toList.drop place = tags.toList :=
      List.take_append_drop place tags.toList
    have hadded : (tags.toList.take place ++ tag :: tags.toList.drop place).Pairwise
        Tag.before := by
      rw [← hsplit, List.pairwise_append] at hs
      refine List.pairwise_append.2 ⟨hs.1, List.pairwise_cons.2 ⟨hfits.above, hs.2.1⟩, ?_⟩
      rintro first hf last hl
      rcases List.mem_cons.1 hl with rfl | hl
      · exact hfits.below first hf
      · exact hs.2.2 first hf last hl
    refine Tag.eq_of_mem_iff (tags.insert tag).increasing hadded fun other => ?_
    have hmem : other ∈ tags.toList ↔
        other ∈ tags.toList.take place ∨ other ∈ tags.toList.drop place := by
      rw [← List.mem_append, hsplit]
    rw [mem_insert, hmem, List.mem_append, List.mem_cons]
    exact or_left_comm

theorem toList_foldl_insert (additions : List Tag) :
    (additions.foldl insert tags).toList = additions.foldl Tag.add tags.toList := by
  induction additions generalizing tags with
  | nil => rfl
  | cons tag additions ih => rw [List.foldl_cons, List.foldl_cons, ih, toList_insert]

end TagSet

namespace Tag

theorem mem_withoutRepeats {tags : List Tag} {tag : Tag} :
    tag ∈ withoutRepeats tags ↔ tag ∈ tags := by
  induction tags using withoutRepeats.induct with
  | case1 first rest ih => rw [withoutRepeats, if_pos rfl, ih]; simp
  | case2 first second rest hne ih =>
    rw [withoutRepeats, if_neg hne, List.mem_cons, ih, ← List.mem_cons]
  | case3 tags hshort => rw [withoutRepeats.eq_2 tags hshort]

/-- A list without repetitions side by side is increasing if no tag comes before an
earlier one. -/
theorem increasing_withoutRepeats {tags : List Tag} (h : tags.Pairwise fun a b => ¬b.before a) :
    (withoutRepeats tags).Pairwise before := by
  induction tags using withoutRepeats.induct with
  | case1 first rest ih =>
    rw [withoutRepeats, if_pos rfl]
    exact ih h.of_cons
  | case2 first second rest hne ih =>
    rw [withoutRepeats, if_neg hne]
    obtain ⟨hfirst, hrest⟩ := List.pairwise_cons.1 h
    refine List.pairwise_cons.2 ⟨fun other ho => ?_, ih hrest⟩
    have hsecond : first.before second :=
      (not_before_iff.1 (hfirst second List.mem_cons_self)).resolve_left (Ne.symm hne)
    rcases List.mem_cons.1 (mem_withoutRepeats.1 ho) with rfl | ho
    · exact hsecond
    · rcases not_before_iff.1 ((List.pairwise_cons.1 hrest).1 other ho) with rfl | hb
      · exact hsecond
      · exact before_trans hsecond hb
  | case3 tags hshort =>
    rw [withoutRepeats.eq_2 tags hshort]
    match tags, hshort with
    | [], _ => exact .nil
    | [_], _ => exact List.pairwise_singleton _ _
    | first :: second :: rest, hshort => exact absurd rfl (hshort first second rest)

theorem mem_arrange {given : List Tag} {tag : Tag} : tag ∈ arrange given ↔ tag ∈ given := by
  rw [arrange, mem_withoutRepeats, List.mem_mergeSort]

theorem increasing_arrange (given : List Tag) : (arrange given).Pairwise before := by
  refine increasing_withoutRepeats ((List.pairwise_mergeSort ?_ ?_ given).imp ?_)
  · intro a b c hab hbc
    simp only [decide_eq_true_eq, precedes_iff, not_before_iff] at hab hbc ⊢
    rcases hab with rfl | hab
    · exact hbc
    · rcases hbc with rfl | hbc
      · exact .inr hab
      · exact .inr (before_trans hab hbc)
  · intro a b
    simp only [Bool.or_eq_true, decide_eq_true_eq, precedes_iff, not_before_iff]
    rcases before_or_eq_or_after a b with hab | rfl | hba
    · exact .inl (.inr hab)
    · exact .inl (.inl rfl)
    · exact .inr (.inr hba)
  · intro a b h
    simpa only [decide_eq_true_eq, precedes_iff] using h

end Tag

theorem TagSet.toList_ofList (given : List Tag) : (ofList given).toList = Tag.arrange given :=
  Tag.eq_of_mem_iff (ofList given).increasing (Tag.increasing_arrange given) fun _ =>
    mem_ofList.trans Tag.mem_arrange.symm

/-- A tag set is its tags: arranged at first or added later, in any order and any number
of times, the same tags make the same list, increasing by the bytes of names and then of
values. So a name is answered with its least value, and sets with the same tags are
equal and have the same keys. -/
theorem TagSet.canonical (pairs additions : List Tag) :
    let tags := additions.foldl insert (ofList pairs)
    tags.toList = additions.foldl Tag.add (Tag.arrange pairs) ∧
    tags.toList.Pairwise Tag.precedes ∧
    (∀ tag, tag ∈ tags.toList ↔ tag ∈ pairs ++ additions) ∧
    (∀ others : List Tag, (∀ tag, tag ∈ others ↔ tag ∈ pairs ++ additions) →
      tags = ofList others ∧ additions.foldl Tag.add (Tag.arrange pairs) = Tag.arrange others) ∧
    (∀ name value, tags.get? name = some value ↔ ⟨name, value⟩ ∈ pairs ++ additions ∧
      ∀ other, ⟨name, other⟩ ∈ pairs ++ additions → Text.utf8 value ≤ Text.utf8 other) ∧
    (∀ name, tags.get? name = none ↔ ∀ value, ⟨name, value⟩ ∉ pairs ++ additions) ∧
    ∀ other : TagSet, ((∀ tag, tag ∈ tags.toList ↔ tag ∈ other.toList) ↔ tags = other) ∧
      ((∀ tag, tag ∈ tags.toList ↔ tag ∈ other.toList) →
        ∀ name reportSum, seriesKey name reportSum tags = seriesKey name reportSum other) := by
  intro tags
  have hmem : ∀ tag, tag ∈ tags.toList ↔ tag ∈ pairs ++ additions := fun tag =>
    mem_supplied pairs additions
  have hsteps : tags.toList = additions.foldl Tag.add (Tag.arrange pairs) := by
    rw [toList_foldl_insert, toList_ofList]
  refine ⟨hsteps, ?_, hmem, fun others h => ?_, fun name value => ?_, fun name => ?_,
    fun other => ⟨⟨ext_mem, fun he tag => by rw [he]⟩, fun h name reportSum => ?_⟩⟩
  · exact tags.increasing.imp (Tag.precedes_iff _ _).2
  · have he : tags = ofList others := ext_mem fun tag => by rw [hmem, mem_ofList, h]
    exact ⟨he, by rw [← hsteps, he, toList_ofList]⟩
  · simp only [get?_eq_some_iff, hmem, Text.utf8_le_utf8]
  · simp only [get?_eq_none_iff, hmem]
  · rw [ext_mem h]

/-- A tag that is given twice counts once, and the tag that is added last comes first. -/
theorem TagSet.canonical_of_five :
    let pairs : List Tag := [⟨"é", "x"⟩, ⟨"b", "2"⟩, ⟨"b", "1"⟩, ⟨"b", "2"⟩]
    let others : List Tag := [⟨"b", "0"⟩, ⟨"b", "1"⟩, ⟨"é", "x"⟩, ⟨"b", "2"⟩]
    let tags := [⟨"b", "0"⟩].foldl insert (ofList pairs)
    (∀ tag, tag ∈ others ↔ tag ∈ pairs ++ [⟨"b", "0"⟩]) ∧ tags = ofList others ∧
      tags.get? "b" = some "0" ∧
      seriesKey "m" true tags = seriesKey "m" true (ofList others) := by
  intro pairs others tags
  obtain ⟨-, -, hmem, hothers, hget, -, hkeys⟩ := canonical pairs [⟨"b", "0"⟩]
  have hsame : ∀ tag, tag ∈ others ↔ tag ∈ pairs ++ [⟨"b", "0"⟩] := by
    intro tag
    simp only [others, pairs, List.mem_append, List.mem_cons, List.not_mem_nil, or_false]
    tauto
  refine ⟨hsame, (hothers others hsame).1, (hget "b" "0").2 ⟨by decide, ?_⟩,
    (hkeys (ofList others)).2 (fun tag => ?_) "m" true⟩
  · intro other ho
    simp only [pairs, List.mem_append, List.mem_cons, Tag.mk.injEq, List.not_mem_nil, or_false] at ho
    rw [Text.utf8_le_utf8]
    rcases ho with (⟨hn, -⟩ | ⟨-, rfl⟩ | ⟨-, rfl⟩ | ⟨-, rfl⟩) | ⟨-, rfl⟩
    · exact absurd hn (by decide)
    all_goals decide
  · rw [hmem, mem_ofList, hsame]

end SpanMetrics
