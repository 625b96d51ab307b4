import SpanMetrics.Proofs.Message.Tags
import SpanMetrics.Proofs.Tag.Canonical

/-!
# Which tags a message shows

The document of a tag set in terms of the tags that were supplied for it. There is
one field for each name that a cut leaves, in the order of their bytes, and it shows
the least of the tags that were cut to that name. In what order the tags came has no
part in this.
-/
namespace SpanMetrics

/-- Of some tags the least one whose name is cut to a key. -/
structure Tag.LeastFor (tags : List Tag) (key : String) (tag : Tag) : Prop where
  among : tag ∈ tags
  name : Text.cut 64 tag.name = key
  least : ∀ other ∈ tags, Text.cut 64 other.name = key → other = tag ∨ tag.precedes other

namespace Message

variable (tags : TagSet)

theorem mem_keys_tagsDocument (key : String) :
    key ∈ Bson.keys (tagsDocument tags) ↔ ∃ tag ∈ tags.toList, Text.cut 64 tag.name = key := by
  rw [keys_tagsDocument, List.mem_eraseDups, TagSet.truncated, List.map_map, List.mem_map]
  rfl

/-- The first tag that is cut to a key is the least one. -/
theorem find?_cut_eq_some_iff (key : String) (tag : Tag) :
    tags.toList.find? (fun other => Text.cut 64 other.name = key) = some tag ↔
      Tag.LeastFor tags.toList key tag := by
  simp only [TagSet.find?_eq_some_iff, decide_eq_true_eq, ← Tag.precedes_iff]
  exact ⟨fun ⟨hm, hn, hl⟩ => ⟨hm, hn, hl⟩, fun h => ⟨h.among, h.name, h.least⟩⟩

theorem field?_tagsDocument_eq (key : String) :
    Bson.field? (tagsDocument tags) key =
      (tags.toList.find? fun tag => Text.cut 64 tag.name = key).map
        fun tag => .string (Text.cut 255 tag.value) := by
  rw [field?_tagsDocument, TagSet.truncated, List.find?_map, Option.map_map]
  rfl

theorem exists_leastFor {key : String} (h : key ∈ Bson.keys (tagsDocument tags)) :
    ∃ tag, Tag.LeastFor tags.toList key tag := by
  rw [← Bson.isSome_field?, field?_tagsDocument_eq, Option.isSome_map,
    Option.isSome_iff_exists] at h
  exact h.imp fun tag => (find?_cut_eq_some_iff tags key tag).1

theorem field?_of_leastFor {key : String} {tag : Tag} (h : Tag.LeastFor tags.toList key tag) :
    Bson.field? (tagsDocument tags) key = some (.string (Text.cut 255 tag.value)) := by
  rw [field?_tagsDocument_eq, (find?_cut_eq_some_iff tags key tag).2 h]
  rfl

end Message

theorem Tag.LeastFor.congr {tags others : List Tag} (h : ∀ tag, tag ∈ others ↔ tag ∈ tags)
    {key : String} {tag : Tag} (hl : LeastFor tags key tag) : LeastFor others key tag :=
  ⟨(h tag).2 hl.among, hl.name, fun other ho => hl.least other ((h other).1 ho)⟩

/-- The keys of a tags document are the names of all supplied tags, cut to 64 characters,
strictly increasing by their bytes. The value of a key is that of the least tag that is
cut to it, cut to 255 characters. A cut in the bytes never parts a character, and tags
that are supplied in another way give the same document. -/
theorem Message.tagsDocument_supplied (pairs additions : List Tag) :
    let d := tagsDocument (additions.foldl .insert (.ofList pairs))
    (∀ key, key ∈ Bson.keys d ↔ ∃ tag ∈ pairs ++ additions, Text.cut 64 tag.name = key) ∧
    (Bson.keys d).Pairwise (fun key next => Text.utf8 key < Text.utf8 next) ∧
    (Bson.keys d).Nodup ∧
    (∀ key ∈ Bson.keys d, ∃ tag, Tag.LeastFor (pairs ++ additions) key tag) ∧
    (∀ key tag, Tag.LeastFor (pairs ++ additions) key tag →
      Bson.field? d key = some (.string (Text.cut 255 tag.value)) ∧
      Text.utf8 key = Text.cutBytes 64 tag.name ∧
      Text.utf8 (Text.cut 255 tag.value) = Text.cutBytes 255 tag.value) ∧
    (∀ count s, Text.utf8 (Text.cut count s) = Text.cutBytes count s ∧
      (Text.cut count s).length = min count s.length ∧ ∃ rest, s = Text.cut count s ++ rest) ∧
    ∀ pairs' additions' : List Tag,
      (∀ tag, tag ∈ pairs' ++ additions' ↔ tag ∈ pairs ++ additions) →
      tagsDocument (additions'.foldl .insert (.ofList pairs')) = d := by
  intro d
  have hmem : ∀ tag, tag ∈ (additions.foldl TagSet.insert (.ofList pairs)).toList ↔
      tag ∈ pairs ++ additions := fun tag => TagSet.mem_supplied pairs additions
  refine ⟨fun key => ?_, ?_, ?_, fun key hk => ?_, fun key tag hl => ?_, fun count s => ?_,
    fun pairs' additions' h => ?_⟩
  · simp only [d, mem_keys_tagsDocument, hmem]
  · exact (pairwise_keys_tagsDocument _).imp Text.utf8_lt_of_lt
  · exact (pairwise_keys_tagsDocument _).imp ne_of_lt
  · exact (exists_leastFor _ hk).imp fun tag => .congr fun other => (hmem other).symm
  · refine ⟨field?_of_leastFor _ (hl.congr hmem), ?_, (Text.cutBytes_eq 255 tag.value).symm⟩
    rw [Text.cutBytes_eq, hl.name]
  · exact ⟨(Text.cutBytes_eq count s).symm, Text.length_cut count s, _,
      (Text.cut_append_drop count s).symm⟩
  · have he : additions'.foldl TagSet.insert (.ofList pairs') =
        additions.foldl .insert (.ofList pairs) :=
      TagSet.ext_mem fun tag => by rw [TagSet.mem_supplied, h, hmem]
    rw [he]

/-- Two names of 65 letters, each of two bytes, meet in one key, and the smaller one, which
was added last, gives the value. -/
theorem Message.tagsDocument_supplied_of_three :
    let long := String.ofList (List.replicate 64 'é')
    let pairs : List Tag := [⟨long ++ "b", "2"⟩, ⟨"t", "x"⟩]
    let d := tagsDocument ([⟨long ++ "a", "1"⟩].foldl .insert (.ofList pairs))
    Tag.LeastFor (pairs ++ [⟨long ++ "a", "1"⟩]) long ⟨long ++ "a", "1"⟩ ∧
      Bson.field? d long = some (.string "1") ∧ long ∈ Bson.keys d ∧
      (∃ tag, Tag.LeastFor (pairs ++ [⟨long ++ "a", "1"⟩]) long tag) ∧
      tagsDocument ([].foldl .insert (.ofList (⟨long ++ "a", "1"⟩ :: pairs.reverse))) = d := by
  intro long pairs d
  obtain ⟨hkeys, -, -, hleast, hvalue, -, horder⟩ :=
    tagsDocument_supplied pairs [⟨long ++ "a", "1"⟩]
  have hcut : ∀ t, Text.cut 64 (long ++ t) = long := Text.cut_append (by decide +kernel)
  have hfirst : Tag.LeastFor (pairs ++ [⟨long ++ "a", "1"⟩]) long ⟨long ++ "a", "1"⟩ := by
    refine ⟨by simp, hcut "a", fun other ho hn => ?_⟩
    simp only [pairs, List.mem_append, List.mem_cons, List.not_mem_nil, or_false] at ho
    rcases ho with (rfl | rfl) | rfl
    · exact .inr (.inl (by decide +kernel))
    · exact absurd hn (by decide +kernel)
    · exact .inl rfl
  have hmem : long ∈ Bson.keys d := (hkeys long).2 ⟨_, hfirst.among, hcut "a"⟩
  refine ⟨hfirst, ?_, hmem, hleast long hmem, horder _ _ fun tag => ?_⟩
  · rw [(hvalue long _ hfirst).1, Text.cut_eq_self (by decide)]
  · clear_value long
    simp only [pairs, List.mem_append, List.mem_cons, List.mem_reverse, List.not_mem_nil, or_false]
    tauto

end SpanMetrics
