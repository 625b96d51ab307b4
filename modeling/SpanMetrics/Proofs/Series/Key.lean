import Mathlib
import SpanMetrics.Counter

/-!
# The text of a series key

A key joins the parts of a series without escaping any of them. This module says
what the text of a key is, how a text is read back as tags, and on which series
the key loses nothing: a name without `&`, tag names without `:` and tag values
without `&` are found again, however many tags there are.
-/
namespace SpanMetrics

/-- A separator that stands in neither left part is the same one on both sides. -/
theorem append_cons_inj_of_not_mem {α : Type} {x : α} {a b left right : List α}
    (ha : x ∉ a) (hb : x ∉ b) (h : a ++ x :: left = b ++ x :: right) : a = b ∧ left = right := by
  induction a generalizing b with
  | nil =>
    cases b with
    | nil => exact ⟨rfl, (List.cons.inj h).2⟩
    | cons y b => exact absurd ((List.cons.inj h).1 ▸ List.mem_cons_self) hb
  | cons y a ih =>
    cases b with
    | nil => exact absurd ((List.cons.inj h).1 ▸ List.mem_cons_self) ha
    | cons z b =>
      obtain ⟨rfl, htail⟩ := List.cons.inj h
      obtain ⟨rfl, hrest⟩ := ih (fun hm => ha (List.mem_cons_of_mem _ hm))
        (fun hm => hb (List.mem_cons_of_mem _ hm)) htail
      exact ⟨rfl, hrest⟩

/-- What a counter is kept under: its name, whether its sum is reported, its tags. -/
@[ext] structure Series where
  name : String
  reportSum : Bool
  tags : TagSet
deriving DecidableEq

namespace Series

def key (s : Series) : String := seriesKey s.name s.reportSum s.tags

end Series

def CounterUpdate.series (u : CounterUpdate) : Series := ⟨u.name, u.reportSum, u.tags⟩

theorem CounterUpdate.key_series (u : CounterUpdate) : u.series.key = u.key := rfl

def Counter.series (c : Counter) : Series := ⟨c.name, c.reportSum, c.tags⟩

theorem Counter.key_series (c : Counter) : c.series.key = c.key := rfl

/-- A tag as it stands in a key. -/
def Tag.text (tag : Tag) : List Char := tag.name.toList ++ ':' :: (tag.value.toList ++ ['&'])

def TagSet.text (tags : TagSet) : List Char := tags.toList.flatMap Tag.text

/-- The word that tells whether the sum is reported. -/
def flagText (reportSum : Bool) : List Char := (if reportSum then "true" else "false").toList

namespace Series

def text (s : Series) : List Char :=
  s.name.toList ++ '&' :: (flagText s.reportSum ++ '&' :: s.tags.text)

theorem toList_key (s : Series) : s.key.toList = s.text := by
  have ht : ∀ tag : Tag, (tag.name ++ ":" ++ tag.value ++ "&").toList = tag.text := by
    intro tag
    simp [Tag.text]
  simp [key, seriesKey, text, flagText, TagSet.text, String.toList_join, List.flatMap_map, ht]

theorem key_eq_iff (s other : Series) : other.key = s.key ↔ other.text = s.text := by
  rw [← toList_key, ← toList_key, String.toList_inj]

end Series

theorem flagText_inj {a b : Bool} {left right : List Char}
    (h : flagText a ++ '&' :: left = flagText b ++ '&' :: right) : a = b ∧ left = right := by
  cases a <;> cases b <;> simp_all [flagText]

/-- A tag whose name has no colon is found at the first colon, and its value ends
at the first ampersand if it has none of its own. -/
theorem Tag.text_append_inj {a b : Tag} {left right : List Char}
    (han : ':' ∉ a.name.toList) (hbn : ':' ∉ b.name.toList)
    (hav : '&' ∉ a.value.toList) (hbv : '&' ∉ b.value.toList)
    (h : a.text ++ left = b.text ++ right) : a = b ∧ left = right := by
  simp only [text, List.append_assoc, List.cons_append, List.nil_append] at h
  obtain ⟨hn, hrest⟩ := append_cons_inj_of_not_mem han hbn h
  obtain ⟨hv, hlr⟩ := append_cons_inj_of_not_mem hav hbv hrest
  refine ⟨?_, hlr⟩
  cases a
  cases b
  rw [String.toList_inj] at hn hv
  exact congrArg₂ Tag.mk hn hv

theorem flatMap_text_inj {as bs : List Tag}
    (ha : ∀ tag ∈ as, ':' ∉ tag.name.toList ∧ '&' ∉ tag.value.toList)
    (hb : ∀ tag ∈ bs, ':' ∉ tag.name.toList ∧ '&' ∉ tag.value.toList)
    (h : as.flatMap Tag.text = bs.flatMap Tag.text) : as = bs := by
  induction as generalizing bs with
  | nil =>
    cases bs with
    | nil => rfl
    | cons b bs => simp [Tag.text] at h
  | cons a as ih =>
    cases bs with
    | nil => simp [Tag.text] at h
    | cons b bs =>
      rw [List.flatMap_cons, List.flatMap_cons] at h
      obtain ⟨han, hav⟩ := ha a List.mem_cons_self
      obtain ⟨hbn, hbv⟩ := hb b List.mem_cons_self
      obtain ⟨rfl, hrest⟩ := Tag.text_append_inj han hbn hav hbv h
      have htail := ih (fun tag ht => ha tag (List.mem_cons_of_mem _ ht))
        (fun tag ht => hb tag (List.mem_cons_of_mem _ ht)) hrest
      rw [htail]

/-- No part of the series holds the separator that ends it in the key. -/
structure Series.Plain (s : Series) : Prop where
  name : '&' ∉ s.name.toList
  tags : ∀ tag ∈ s.tags.toList, ':' ∉ tag.name.toList ∧ '&' ∉ tag.value.toList

/-- Among plain series a key belongs to one series only. -/
theorem Series.eq_of_key_eq {s other : Series} (hs : s.Plain) (ho : other.Plain)
    (h : other.key = s.key) : other = s := by
  rw [key_eq_iff, text, text] at h
  obtain ⟨hn, hrest⟩ := append_cons_inj_of_not_mem ho.name hs.name h
  obtain ⟨hf, ht⟩ := flagText_inj hrest
  have htags := TagSet.ext_toList (flatMap_text_inj ho.tags hs.tags ht)
  exact Series.ext (String.toList_inj.1 hn) hf htags

end SpanMetrics
