import SpanMetrics.Proofs.Counter.Grouping
import SpanMetrics.Proofs.Response.Keys

/-!
# Which series share their key

A key reads in one way only if its tags hold a single colon at most and no other
place in it reads as a flag. These are exactly the series that share their key
with no other one; already two tags are enough for a second reading, in which
one tag has the rest of the text as its value. Two responses share a series that
is not the same for both exactly if method and transaction can be split in two
ways.
-/
namespace SpanMetrics

/-- Any text with a colon that ends with an ampersand is the text of one tag, with
the colon as the end of the name. -/
theorem exists_tags_of_split {a b : List Char} (h : (a ++ ':' :: b).getLast? = some '&') :
    ∃ tags : TagSet, tags.text = a ++ ':' :: b ∧ tags.toList.map (·.name) = [.ofList a] := by
  have hb : b.getLast? = some '&' := by
    rw [List.getLast?_append, List.getLast?_cons] at h
    cases hl : b.getLast? with
    | none => simp [hl] at h
    | some x => simpa [hl] using h
  obtain ⟨v, rfl⟩ := List.getLast?_eq_some_iff.1 hb
  refine ⟨.ofList [⟨.ofList a, .ofList v⟩], ?_, rfl⟩
  show [(⟨.ofList a, .ofList v⟩ : Tag)].flatMap Tag.text = _
  simp [Tag.text]

theorem TagSet.text_eq_nil_or_mem (tags : TagSet) : tags.text = [] ∨ ':' ∈ tags.text := by
  rcases tags with ⟨_ | ⟨tag, rest⟩, h⟩
  · exact .inl rfl
  · exact .inr (by simp [text, Tag.text])

theorem getLast?_flatMap_text (tag : Tag) (tags : List Tag) :
    ((tag :: tags).flatMap Tag.text).getLast? = some '&' := by
  induction tags generalizing tag with
  | nil => simp [Tag.text, List.getLast?_cons]
  | cons next rest ih =>
    rw [List.flatMap_cons, List.getLast?_append, ih]
    rfl

theorem getLast?_text (tags : TagSet) : ('&' :: tags.text).getLast? = some '&' := by
  rcases tags with ⟨_ | ⟨tag, rest⟩, h⟩
  · rfl
  · rw [List.getLast?_cons, TagSet.text, getLast?_flatMap_text]
    rfl

/-- Whatever is left of a key after a flag is empty or ends with an ampersand. -/
theorem Series.getLast?_of_text_eq {s : Series} (left rest : List Char)
    (h : s.text = left ++ rest) (hr : rest ≠ []) : rest.getLast? = some '&' := by
  have hs : s.text.getLast? = some '&' := by
    rw [text, List.getLast?_append, List.getLast?_cons, List.getLast?_append, getLast?_text]
    rfl
  rw [h, List.getLast?_append_of_ne_nil _ hr] at hs
  exact hs

namespace Series

/-- The key of the series reads in one way. -/
structure Unambiguous (s : Series) : Prop where
  oneColon : s.tags.text.count ':' ≤ 1
  oneFlag : ∀ (name : List Char) (flag : Bool) (rest : List Char),
    s.text = name ++ '&' :: (flagText flag ++ '&' :: rest) → rest = [] ∨ ':' ∈ rest →
      name = s.name.toList

/-- A tag text with one colon is split at that colon. -/
theorem eq_of_text_eq_of_count {a b : TagSet} (h : a.text = b.text)
    (hc : b.text.count ':' ≤ 1) : a = b := by
  have hone : ∀ t : TagSet, t.text.count ':' ≤ 1 → t.toList.length ≤ 1 ∧
      ∀ tag ∈ t.toList, ':' ∉ tag.name.toList := by
    intro t ht
    rcases t with ⟨_ | ⟨tag, _ | ⟨next, rest⟩⟩, hi⟩
    · simp
    · refine ⟨by simp, ?_⟩
      intro other ho hm
      obtain rfl := List.mem_singleton.1 ho
      have hp := List.count_pos_iff.2 hm
      simp [TagSet.text, Tag.text] at ht
      omega
    · simp [TagSet.text, Tag.text] at ht
      omega
  obtain ⟨hal, han⟩ := hone a (h ▸ hc)
  obtain ⟨hbl, hbn⟩ := hone b hc
  rcases a with ⟨_ | ⟨x, _ | ⟨x', xs⟩⟩, ha⟩ <;> rcases b with ⟨_ | ⟨y, _ | ⟨y', ys⟩⟩, hb⟩ <;>
    simp only [List.length_cons] at hal hbl <;> try omega
  · rfl
  · simp [TagSet.text, Tag.text] at h
  · simp [TagSet.text, Tag.text] at h
  · apply TagSet.ext_toList
    simp only [TagSet.text, Tag.text, List.flatMap_cons, List.flatMap_nil, List.append_nil] at h
    obtain ⟨hn, hv⟩ := append_cons_inj_of_not_mem (han x (by simp)) (hbn y (by simp)) h
    have hv := List.append_cancel_right hv
    rw [String.toList_inj] at hn hv
    cases x
    cases y
    simp_all

theorem eq_of_unambiguous {s other : Series} (hs : s.Unambiguous) (h : other.key = s.key) :
    other = s := by
  rw [key_eq_iff] at h
  have hn : other.name.toList = s.name.toList :=
    hs.oneFlag _ other.reportSum other.tags.text h.symm other.tags.text_eq_nil_or_mem
  rw [text, text, hn] at h
  obtain ⟨hf, ht⟩ := flagText_inj (List.cons.inj (List.append_cancel_left h)).2
  exact Series.ext (String.toList_inj.1 hn) hf (eq_of_text_eq_of_count ht hs.oneColon)

/-- Two colons give two series with one key: the tag may end its name at either. -/
theorem exists_ne_of_two_colons {s : Series} (h : 2 ≤ s.tags.text.count ':') :
    ∃ other : Series, other.key = s.key ∧ other ≠ s := by
  have hm : ':' ∈ s.tags.text := List.count_pos_iff.1 (by omega)
  obtain ⟨a, b, hab, ha⟩ := List.eq_append_cons_of_mem hm
  have hb : ':' ∈ b := by
    rw [hab, List.count_append, List.count_cons_self, List.count_eq_zero.2 ha] at h
    exact List.count_pos_iff.1 (by omega)
  obtain ⟨c, d, rfl⟩ := List.append_of_mem hb
  have hlast : s.tags.text.getLast? = some '&' :=
    getLast?_of_text_eq (s := s) (s.name.toList ++ '&' :: (flagText s.reportSum ++ ['&'])) _
      (by simp [text]) (List.ne_nil_of_mem hm)
  have hcd : s.tags.text = (a ++ ':' :: c) ++ ':' :: d := by rw [hab]; simp
  obtain ⟨first, hft, hfn⟩ := exists_tags_of_split (hab ▸ hlast)
  obtain ⟨second, hst, hsn⟩ := exists_tags_of_split (hcd ▸ hlast)
  have hkey : ∀ tags : TagSet, tags.text = s.tags.text →
      (⟨s.name, s.reportSum, tags⟩ : Series).key = s.key := by
    intro tags ht
    rw [key_eq_iff, text, text, ht]
  by_cases he : first = s.tags
  · refine ⟨⟨s.name, s.reportSum, second⟩, hkey second (hst.trans hcd.symm), ?_⟩
    intro hs
    -- the second name is longer than the first
    have htags : second = first := (congrArg Series.tags hs).trans he.symm
    rw [htags, hfn] at hsn
    have hlen := congrArg (fun names => (names.map String.toList).flatten.length) hsn
    simp at hlen
  · exact ⟨⟨s.name, s.reportSum, first⟩, hkey first (hft.trans hab.symm),
      fun hs => he (congrArg Series.tags hs)⟩

/-- A second flag with a readable rest behind it gives a second name. -/
theorem exists_ne_of_flag {s : Series} {name rest : List Char} {flag : Bool}
    (h : s.text = name ++ '&' :: (flagText flag ++ '&' :: rest)) (hr : rest = [] ∨ ':' ∈ rest)
    (hn : name ≠ s.name.toList) : ∃ other : Series, other.key = s.key ∧ other ≠ s := by
  have htags : ∃ tags : TagSet, tags.text = rest := by
    rcases hr with rfl | hm
    · exact ⟨.empty, rfl⟩
    · obtain ⟨a, b, rfl⟩ := List.append_of_mem hm
      have hlast := getLast?_of_text_eq (s := s) (name ++ '&' :: (flagText flag ++ ['&']))
        (a ++ ':' :: b) (by rw [h]; simp) (by simp)
      obtain ⟨tags, ht, -⟩ := exists_tags_of_split hlast
      exact ⟨tags, ht⟩
  obtain ⟨tags, ht⟩ := htags
  refine ⟨⟨.ofList name, flag, tags⟩, ?_, fun hs => hn ?_⟩
  · rw [key_eq_iff, h, text, ht]
    simp
  · rw [← congrArg Series.name hs]
    simp

/-- The series that share their key with no other one. -/
theorem unshared_iff (s : Series) :
    (∀ other : Series, other.key = s.key → other = s) ↔ s.Unambiguous := by
  constructor
  · intro h
    constructor
    · by_contra hc
      obtain ⟨other, hk, hne⟩ := exists_ne_of_two_colons (s := s) (by omega)
      exact hne (h other hk)
    · intro name flag rest ht hr
      by_contra hn
      obtain ⟨other, hk, hne⟩ := exists_ne_of_flag ht hr hn
      exact hne (h other hk)
  · intro h other
    exact eq_of_unambiguous h

theorem unmixed_iff (s : Series) :
    (∀ (t : CounterTable) (u : CounterUpdate), u.series ≠ s →
      (t.record u).get? s.key = t.get? s.key) ↔ s.Unambiguous := by
  rw [← unshared_iff]
  constructor
  · intro h other hk
    by_contra hne
    obtain ⟨u, rfl⟩ : ∃ u : CounterUpdate, u.series = other :=
      ⟨⟨other.name, other.tags, .zero, 1, other.reportSum⟩, rfl⟩
    have hu := h .empty u hne
    rw [CounterTable.get?_record, if_pos (hk.symm.trans u.key_series)] at hu
    simp at hu
  · intro h t u hu
    rw [CounterTable.get?_record, if_neg fun hk => hu (h u.series hk.symm)]

end Series

namespace ResponseTime

theorem series_inj {a b : ResponseSeries} (h : a.series = b.series) : a = b := by
  have hk : a.key = b.key := congrArg Series.key h
  rcases (ResponseSeries.key_eq_iff a b).1 hk with he | hr
  · exact he
  · cases a <;> cases b <;> simp only [ResponseSeries.Recombined] at hr
    have ht := congrArg (fun s => s.tags.toList) h
    simp only [ResponseSeries.series, ResponseSeries.toList_tags_byMethod] at ht
    simp_all

/-- Two responses meet in series that differ exactly if their methods and
transactions run into one text. -/
theorem responses_separate_iff (r q : ResponseTime) :
    (∀ u ∈ r.updates, ∀ v ∈ q.updates, v.key = u.key → v.series = u.series) ↔
      (q.method ++ "&TransactionName:" ++ q.transaction =
          r.method ++ "&TransactionName:" ++ r.transaction →
        q.method = r.method ∧ q.transaction = r.transaction) := by
  simp only [updates_eq, List.forall_mem_map, key_updateOf, series_updateOf]
  constructor
  · intro h hr
    have hs := h _ (byMethod_mem_series.2 ⟨rfl, rfl⟩) _ (byMethod_mem_series.2 ⟨rfl, rfl⟩)
      ((ResponseSeries.key_eq_iff _ _).2 (.inr hr))
    have hb := series_inj hs
    rw [ResponseSeries.byMethod.injEq] at hb
    exact ⟨hb.2, hb.1⟩
  · intro h a ha b hb hk
    rcases (ResponseSeries.key_eq_iff b a).1 hk with rfl | hr
    · rfl
    · cases a <;> cases b <;> simp only [ResponseSeries.Recombined] at hr
      obtain ⟨rfl, rfl⟩ := byMethod_mem_series.1 ha
      obtain ⟨rfl, rfl⟩ := byMethod_mem_series.1 hb
      obtain ⟨hm, ht⟩ := h hr
      rw [hm, ht]

end ResponseTime

/-- A series has its key for itself exactly if the key reads in one way, and the
same condition tells whether updates of other series leave its entry alone. Series
without separators in their parts never meet each other. -/
theorem separate_iff (s : Series) (r q : ResponseTime) :
    ((∀ other : Series, other.key = s.key → other = s) ↔ s.Unambiguous) ∧
    ((∀ (t : CounterTable) (u : CounterUpdate), u.series ≠ s →
        (t.record u).get? s.key = t.get? s.key) ↔ s.Unambiguous) ∧
    (s.Plain → ∀ other : Series, other.Plain → other.key = s.key → other = s) ∧
    ((∀ u ∈ r.updates, ∀ v ∈ q.updates, v.key = u.key → v.series = u.series) ↔
      (q.method ++ "&TransactionName:" ++ q.transaction =
          r.method ++ "&TransactionName:" ++ r.transaction →
        q.method = r.method ∧ q.transaction = r.transaction)) :=
  ⟨s.unshared_iff, s.unmixed_iff, fun hs _ ho hk => Series.eq_of_key_eq hs ho hk,
    ResponseTime.responses_separate_iff r q⟩

/-- One tag with a value that holds separators is counted together with two tags,
and a method with a transaction in it together with a shorter method. -/
theorem distinct_series_meet :
    let one : CounterUpdate := ⟨"m", .ofList [⟨"t", "1&u:2"⟩], .zero, 1, true⟩
    let two : CounterUpdate := ⟨"m", .ofList [⟨"t", "1"⟩, ⟨"u", "2"⟩], .zero, 1, true⟩
    let long : ResponseTime := ⟨"c", "a&TransactionName:b", 200, false, .zero⟩
    let short : ResponseTime := ⟨"b&TransactionName:c", "a", 200, false, .zero⟩
    one.series ≠ two.series ∧ one.series.key = two.series.key ∧
      ((CounterTable.recordAll .empty [one, two]).values.map (·.count)) = [2] ∧
      (CounterTable.recordAll .empty (long.updates ++ short.updates)).size = 5 := by
  decide +kernel

end SpanMetrics
