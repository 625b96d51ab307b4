import SpanMetrics.Message.Document
import SpanMetrics.Proofs.Bson.Documents
import SpanMetrics.Proofs.List.Distinct
import SpanMetrics.Proofs.Text.Cut

/-!
# Tags on the wire

The document of a tag set. Its keys are the distinct cut names in the order of the
set, which is their own order, so the tags that meet in one name leave the value of
the first of them, and a set without a NUL character in its cut names can be written.
-/
namespace SpanMetrics.Message

open Bson (Value Document)

theorem keys_insertNew (d : Document) (tag : Tag) :
    Bson.keys (insertNew d tag) =
      if tag.name ∈ Bson.keys d then Bson.keys d else Bson.keys d ++ [tag.name] := by
  unfold insertNew
  simp only [Bson.isSome_field?]
  split
  · rfl
  · rw [Bson.keys_append]
    rfl

theorem field?_insertNew (d : Document) (tag : Tag) (key : String) :
    Bson.field? (insertNew d tag) key =
      (Bson.field? d key).or (if tag.name = key then some (.string tag.value) else none) := by
  unfold insertNew
  by_cases hk : tag.name = key
  · subst hk
    rw [if_pos rfl]
    split
    · next hs => rw [Option.or_of_isSome hs]
    · rw [Bson.field?_append, Bson.field?_cons, if_pos rfl]
  · rw [if_neg hk, Option.or_none]
    split
    · rfl
    · rw [Bson.field?_append, Bson.field?_cons, if_neg (Ne.symm hk), Bson.field?_nil,
        Option.or_none]

theorem keys_foldl_insertNew (tags : List Tag) :
    Bson.keys (tags.foldl insertNew []) = (tags.map (·.name)).eraseDups := by
  induction tags using List.reverseRecOn with
  | nil => rfl
  | append_singleton tags tag ih =>
    have hm : tag.name ∈ (tags.map (·.name)).eraseDups ↔ tag.name ∈ tags.map (·.name) :=
      List.mem_eraseDups
    rw [List.foldl_concat, keys_insertNew, ih, List.map_append, List.map_singleton,
      eraseDups_concat]
    simp only [hm]

theorem field?_foldl_insertNew (tags : List Tag) (key : String) :
    Bson.field? (tags.foldl insertNew []) key =
      (tags.find? (·.name = key)).map fun tag => .string tag.value := by
  induction tags using List.reverseRecOn with
  | nil => rfl
  | append_singleton tags tag ih =>
    rw [List.foldl_concat, field?_insertNew, ih, List.find?_append, List.find?_singleton]
    cases tags.find? (·.name = key) with
    | none => by_cases h : tag.name = key <;> simp [h]
    | some first => rfl

variable (tags : TagSet)

/-- The keys are the cut names, each where it comes first. -/
theorem keys_tagsDocument :
    Bson.keys (tagsDocument tags) = (tags.truncated.map (·.name)).eraseDups :=
  keys_foldl_insertNew _

/-- The cut keeps the order of names, so the keys come in their own order. -/
theorem pairwise_keys_tagsDocument : (Bson.keys (tagsDocument tags)).Pairwise (· < ·) := by
  have hcut : (tags.truncated.map (·.name)).Pairwise (· ≤ ·) := by
    rw [TagSet.truncated, List.map_map, List.pairwise_map]
    apply tags.increasing.imp
    intro t u h
    have hle : t.name ≤ u.name := h.elim le_of_lt fun he => le_of_eq he.1
    exact Text.cut_le_cut hle _
  rw [keys_tagsDocument]
  have hle : ((tags.truncated.map (·.name)).eraseDups).Pairwise (· ≤ ·) :=
    hcut.sublist (eraseDups_sublist _)
  exact hle.imp₂ (fun _ _ => lt_of_le_of_ne) (nodup_eraseDups _)

/-- A key has the cut value of the first tag whose cut name it is. -/
theorem field?_tagsDocument (key : String) :
    Bson.field? (tagsDocument tags) key =
      (tags.truncated.find? (·.name = key)).map fun tag => .string tag.value :=
  field?_foldl_insertNew _ key

theorem eq_string_of_mem_tagsDocument {field : String × Value} (h : field ∈ tagsDocument tags) :
    ∃ text, field.2 = .string text := by
  unfold tagsDocument at h
  generalize tags.truncated = cut at h
  induction cut using List.reverseRecOn with
  | nil => cases h
  | append_singleton cut tag ih =>
    rw [List.foldl_concat, insertNew] at h
    split at h
    · exact ih h
    · rcases List.mem_append.1 h with h | h
      · exact ih h
      · exact ⟨tag.value, congrArg Prod.snd (List.mem_singleton.1 h)⟩

theorem unrepeated_tagsDocument : (Value.document (tagsDocument tags)).Unrepeated := by
  refine .document ?_ fun field hf => ?_
  · rw [keys_tagsDocument]
    exact nodup_eraseDups _
  · obtain ⟨text, ht⟩ := eq_string_of_mem_tagsDocument tags hf
    rw [ht]
    exact .string text

/-- The first key that cannot be written is that of the first such tag. -/
theorem badKey?_tagsDocument :
    (Value.document (tagsDocument tags)).badKey? =
      (tags.truncated.map (·.name)).find? (!Bson.keyOk ·) := by
  have hp : ∀ field ∈ tagsDocument tags, field.2.badKey? = none := by
    intro field hf
    obtain ⟨text, ht⟩ := eq_string_of_mem_tagsDocument tags hf
    rw [ht]
    rfl
  show Bson.badKeyOfFields? (tagsDocument tags) = _
  rw [Bson.badKeyOfFields?_of_plain hp, keys_tagsDocument, find?_eraseDups]

end SpanMetrics.Message
