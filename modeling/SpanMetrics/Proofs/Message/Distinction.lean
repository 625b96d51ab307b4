import SpanMetrics.Proofs.Aggregation.Counters
import SpanMetrics.Proofs.Aggregation.Counts
import SpanMetrics.Proofs.Message.Confinement
import SpanMetrics.Proofs.Message.Counts
import SpanMetrics.Proofs.Tag.Canonical

/-!
# Telling series apart

What a reader of a message can tell series apart by. The entries of a drain have
distinct series, but a document shows a series with its tags cut and with one value
for each cut name. The cut keeps the order of names, so the tags of a document say
neither more nor less than which value each name has; two series look alike exactly
if they agree in that, and series that lose nothing by the cut never do.
-/
namespace SpanMetrics

open Bson (Value Document)

/-! ## Tags that are cut -/

namespace TagSet

variable {a b : TagSet}

theorem pairwise_wireNames (tags : TagSet) : tags.wireNames.Pairwise (· < ·) := by
  rw [wireNames, ← Message.keys_tagsDocument]
  exact Message.pairwise_keys_tagsDocument tags

/-- The value of a cut name on the wire. -/
def wireValue? (tags : TagSet) (name : String) : Option String :=
  (tags.truncated.find? (·.name = name)).map (·.value)

/-- Both sets show the same names with the same values on the wire. -/
def SameOnWire (a b : TagSet) : Prop := ∀ name, a.wireValue? name = b.wireValue? name

theorem SameOnWire.of_truncated (h : a.truncated = b.truncated) : a.SameOnWire b := by
  intro name
  rw [wireValue?, wireValue?, h]

theorem mem_wireNames (tags : TagSet) (name : String) :
    name ∈ tags.wireNames ↔ (tags.wireValue? name).isSome := by
  rw [wireNames, List.mem_eraseDups, wireValue?, Option.isSome_map, List.find?_isSome]
  simp

theorem SameOnWire.wireNames_eq (h : a.SameOnWire b) : a.wireNames = b.wireNames := by
  have hmem : ∀ name, name ∈ a.wireNames ↔ name ∈ b.wireNames := fun name => by
    rw [mem_wireNames, mem_wireNames, h]
  have hperm := (List.perm_ext_iff_of_nodup (nodup_eraseDups _) (nodup_eraseDups _)).2 hmem
  exact hperm.eq_of_pairwise (fun _ _ _ _ hab hba => absurd hab (lt_asymm hba))
    a.pairwise_wireNames b.pairwise_wireNames

theorem isEmpty_wireNames (tags : TagSet) : tags.wireNames.isEmpty = tags.isEmpty := by
  rw [wireNames, isEmpty, truncated]
  cases tags.toList with
  | nil => rfl
  | cons tag rest =>
    rw [List.map_cons, List.map_cons, List.eraseDups_cons]
    rfl

/-- Every name and value is short enough for the wire, and no name has two values. -/
structure Uncut (tags : TagSet) : Prop where
  names : ∀ tag ∈ tags.toList, tag.name.length ≤ Tag.nameLimit
  values : ∀ tag ∈ tags.toList, tag.value.length ≤ Tag.valueLimit
  single : (tags.toList.map (·.name)).Nodup

theorem Uncut.truncated_eq (h : a.Uncut) : a.truncated = a.toList := by
  rw [truncated]
  refine (List.map_congr_left fun tag ht => ?_).trans (List.map_id _)
  show Tag.mk _ _ = tag
  rw [Text.cut_eq_self (h.names tag ht), Text.cut_eq_self (h.values tag ht)]

/-- Without cuts a set can be read off the wire. -/
theorem Uncut.mem_iff (h : a.Uncut) (tag : Tag) :
    tag ∈ a.toList ↔ a.wireValue? tag.name = some tag.value := by
  rw [wireValue?, h.truncated_eq]
  constructor
  · intro ht
    cases hf : a.toList.find? (·.name = tag.name) with
    | none => exact absurd rfl (of_decide_eq_false (eq_false_of_ne_true
        (List.find?_eq_none.1 hf tag ht)))
    | some other =>
      have hn : other.name = tag.name := by simpa using List.find?_some hf
      rw [List.inj_on_of_nodup_map h.single (List.mem_of_find?_eq_some hf) ht hn, Option.map_some]
  · intro hv
    obtain ⟨other, hf, hval⟩ := Option.map_eq_some_iff.1 hv
    have hn : other.name = tag.name := by simpa using List.find?_some hf
    have ho : other = tag := by
      cases other
      cases tag
      exact congrArg₂ Tag.mk hn hval
    exact ho ▸ List.mem_of_find?_eq_some hf

theorem Uncut.eq_of_sameOnWire (ha : a.Uncut) (hb : b.Uncut) (h : a.SameOnWire b) : a = b :=
  ext_mem fun tag => by rw [ha.mem_iff, hb.mem_iff, h]

end TagSet

/-- Series that have nothing on the wire to tell them apart. -/
structure Series.SameOnWire (a b : Series) : Prop where
  name : a.name = b.name
  reportSum : a.reportSum = b.reportSum
  tags : a.tags.SameOnWire b.tags

theorem Series.eq_of_sameOnWire {a b : Series} (ha : a.tags.Uncut) (hb : b.tags.Uncut)
    (h : a.SameOnWire b) : a = b :=
  Series.ext h.name h.reportSum (ha.eq_of_sameOnWire hb h.tags)

namespace Message

/-! ## Documents -/

/-- The documents of counters: those that have a count. -/
def counterDocuments (d : Document) : List Document :=
  (listed d "measurements").filter fun entry => (Bson.field? entry "count").isSome

/-- Documents of counters with the same name and the same tags, both with a sum or both
without. -/
structure Alike (d e : Document) : Prop where
  name : Bson.field? d "name" = Bson.field? e "name"
  sum : (Bson.field? d "sum").isSome = (Bson.field? e "sum").isSome
  tags : Bson.field? d "tags" = Bson.field? e "tags"

/-- What a field tells of tags, through the document in it. -/
theorem TellsTags.inner {tags : TagSet} {value : Option Value} (h : TellsTags tags value) :
    let d := value.elim [] Value.inner
    value = (if tags.isEmpty then none else some (.document d)) ∧ Bson.keys d = tags.wireNames ∧
      ∀ name, Bson.field? d name = (tags.wireValue? name).map .string := by
  unfold TellsTags at h
  rw [TagSet.wireNames, TagSet.truncated, List.map_map]
  split at h
  · next he =>
    have hnil : tags.toList = [] := List.isEmpty_iff.1 he
    subst h
    refine ⟨(if_pos he).symm, ?_, fun name => ?_⟩
    · rw [hnil]
      rfl
    · rw [TagSet.wireValue?, TagSet.truncated, hnil]
      rfl
  · next he =>
    obtain ⟨d, rfl, hk, hf⟩ := h
    refine ⟨(if_neg he).symm, hk, fun name => (hf name).trans ?_⟩
    rw [TagSet.wireValue?, TagSet.truncated, List.find?_map, Option.map_map, Option.map_map]
    rfl

/-- Fields tell the same of tags exactly if the sets are the same on the wire. -/
theorem TellsTags.eq_iff {a b : TagSet} {v w : Option Value} (ha : TellsTags a v)
    (hb : TellsTags b w) : v = w ↔ a.SameOnWire b := by
  obtain ⟨hv, hvk, hvf⟩ := ha.inner
  obtain ⟨hw, hwk, hwf⟩ := hb.inner
  constructor
  · rintro rfl name
    have hname := (hvf name).symm.trans (hwf name)
    exact Option.map_injective (fun _ _ => Value.string.inj) hname
  · intro h
    have hkeys : Bson.keys (v.elim [] Value.inner) = Bson.keys (w.elim [] Value.inner) := by
      rw [hvk, hwk, h.wireNames_eq]
    have hinner : v.elim [] Value.inner = w.elim [] Value.inner := by
      refine Bson.ext_field? (hvk ▸ nodup_eraseDups _) hkeys fun name => ?_
      rw [hvf, hwf, h]
    have hempty : a.isEmpty = b.isEmpty := by
      rw [← a.isEmpty_wireNames, ← b.isEmpty_wireNames, h.wireNames_eq]
    rw [hinner, hempty] at hv
    exact hv.trans hw.symm

theorem TellsCounter.alike_iff {c c' : Counter} {d d' : Document} (h : TellsCounter c d)
    (h' : TellsCounter c' d') : Alike d d' ↔ c.series.SameOnWire c'.series := by
  have hname : Bson.field? d "name" = Bson.field? d' "name" ↔ c.name = c'.name := by
    rw [h.name, h'.name, Option.some.injEq, Value.string.injEq]
  have hsum : (Bson.field? d "sum").isSome = (Bson.field? d' "sum").isSome ↔
      c.reportSum = c'.reportSum := by
    rw [h.sum, h'.sum]
    cases c.reportSum <;> cases c'.reportSum <;> simp
  have htags := h.tags.eq_iff h'.tags
  exact ⟨fun ha => ⟨hname.1 ha.name, hsum.1 ha.sum, htags.1 ha.tags⟩,
    fun ha => ⟨hname.2 ha.name, hsum.2 ha.reportSum, htags.2 ha.tags⟩⟩

/-- A cut name is empty only if the name is. -/
theorem cut_eq_empty_iff (name : String) : Text.cut 255 name = "" ↔ name = "" := by
  rw [← String.toList_inj, ← String.toList_inj, Text.cut, String.toList_ofList]
  simp

/-- Two histograms have the same tags exactly if their names agree after the cut. -/
theorem TellsHistogram.tags_eq_iff {z : Zlib.Encoder} {e e' : HistogramEntry} {d d' : Document}
    (h : TellsHistogram z e d) (h' : TellsHistogram z e' d') :
    Bson.field? d "tags" = Bson.field? d' "tags" ↔
      Text.cut 255 e.name = Text.cut 255 e'.name := by
  have hfield : ∀ name : String, Text.cut 255 name = String.ofList (name.toList.take 255) :=
    fun _ => rfl
  rw [h.tags, h'.tags, ← hfield, ← hfield]
  by_cases he : e.name = "" <;> by_cases he' : e'.name = ""
  · rw [he, he']
    simp
  · rw [he, if_pos rfl, if_neg he', eq_comm (a := Text.cut 255 "")]
    exact iff_of_false (fun hn => nomatch hn) fun hc => he' ((cut_eq_empty_iff _).1 hc)
  · rw [he', if_neg he, if_pos rfl]
    exact iff_of_false (fun hn => nomatch hn) fun hc => he ((cut_eq_empty_iff _).1 hc)
  · rw [if_neg he, if_neg he']
    simp

/-- What holds of any two entries carries over to their documents. -/
theorem pairwise_zip_of_forall₂ {α β : Type} {R : α → β → Prop} {S : α → α → Prop}
    {T : α × β → α × β → Prop} {as : List α} {bs : List β} (h : List.Forall₂ R as bs)
    (hs : as.Pairwise S) (ht : ∀ a b a' b', R a b → R a' b' → S a a' → T (a, b) (a', b')) :
    (as.zip bs).Pairwise T := by
  induction h with
  | nil => exact .nil
  | @cons a b as bs hr hrest ih =>
    obtain ⟨ha, has⟩ := List.pairwise_cons.1 hs
    refine List.pairwise_cons.2 ⟨fun x hx => ?_, ih has⟩
    obtain ⟨hmem, -⟩ := List.of_mem_zip hx
    exact ht a b x.1 x.2 hr (List.forall₂_iff_zip.1 hrest |>.2 hx) (ha x.1 hmem)

/-- Documents of counters: any two have distinct series, and they look alike exactly if
those are the same on the wire. If the wire takes all tags as they are, no two look
alike. -/
structure CountersApart (counters : List Counter) (documents : List Document) : Prop where
  told : List.Forall₂ TellsCounter counters documents
  alike : (counters.zip documents).Pairwise fun x y =>
    x.1.series ≠ y.1.series ∧ (Alike x.2 y.2 ↔ x.1.series.SameOnWire y.1.series)
  apart : (∀ c ∈ counters, c.tags.Uncut) → documents.Pairwise (¬Alike · ·)

/-- Documents of histograms: any two have distinct names, and they have the same tags
exactly if the names agree in all characters that go on the wire. -/
structure HistogramsApart (z : Zlib.Encoder) (entries : List HistogramEntry)
    (documents : List Document) : Prop where
  told : List.Forall₂ (TellsHistogram z) entries documents
  alike : (entries.zip documents).Pairwise fun x y =>
    x.1.name ≠ y.1.name ∧ (Bson.field? x.2 "tags" = Bson.field? y.2 "tags" ↔
      Text.cut 255 x.1.name = Text.cut 255 y.1.name)
  apart : (∀ e ∈ entries, e.name.length ≤ 255) →
    documents.Pairwise (Bson.field? · "tags" ≠ Bson.field? · "tags")

theorem countersApart {counters : List Counter} {documents : List Document}
    (h : List.Forall₂ TellsCounter counters documents)
    (hs : counters.Pairwise (·.series ≠ ·.series)) : CountersApart counters documents := by
  have halike : (counters.zip documents).Pairwise fun x y =>
      x.1.series ≠ y.1.series ∧ (Alike x.2 y.2 ↔ x.1.series.SameOnWire y.1.series) :=
    pairwise_zip_of_forall₂ h hs fun _ _ _ _ hc hc' hne => ⟨hne, hc.alike_iff hc'⟩
  refine ⟨h, halike, fun huncut => ?_⟩
  rw [← List.map_snd_zip h.length_eq.ge, List.pairwise_map]
  refine halike.imp_of_mem fun {x y} hx hy ⟨hne, hiff⟩ ha => hne ?_
  exact Series.eq_of_sameOnWire (huncut x.1 (List.of_mem_zip hx).1)
    (huncut y.1 (List.of_mem_zip hy).1) (hiff.1 ha)

theorem histogramsApart {z : Zlib.Encoder} {entries : List HistogramEntry}
    {documents : List Document} (h : List.Forall₂ (TellsHistogram z) entries documents)
    (hn : entries.Pairwise (·.name ≠ ·.name)) : HistogramsApart z entries documents := by
  have halike : (entries.zip documents).Pairwise fun x y =>
      x.1.name ≠ y.1.name ∧ (Bson.field? x.2 "tags" = Bson.field? y.2 "tags" ↔
        Text.cut 255 x.1.name = Text.cut 255 y.1.name) :=
    pairwise_zip_of_forall₂ h hn fun _ _ _ _ he he' hne => ⟨hne, he.tags_eq_iff he'⟩
  refine ⟨h, halike, fun hshort => ?_⟩
  rw [← List.map_snd_zip h.length_eq.ge, List.pairwise_map]
  refine halike.imp_of_mem fun {x y} hx hy ⟨hne, hiff⟩ ht => hne ?_
  rw [← Text.cut_eq_self (hshort x.1 (List.of_mem_zip hx).1), hiff.1 ht,
    Text.cut_eq_self (hshort y.1 (List.of_mem_zip hy).1)]

variable {z : Zlib.Encoder} {c : Cycle} {context : MessageContext} {d : Document}

/-- Only counters have a count. -/
theorem Layout.forall₂_counters (h : Layout z c context d) :
    List.Forall₂ TellsCounter c.counters (counterDocuments d) := by
  obtain ⟨counters, hl, hc⟩ := h.listed_measurements
  have hmetrics : ((metrics c context).map metricFields).filter
      (fun entry => (Bson.field? entry "count").isSome) = [] := by
    rw [List.filter_eq_nil_iff]
    intro entry he
    obtain ⟨m, -, rfl⟩ := List.mem_map.1 he
    exact Bool.false_ne_true
  have hcounters : counters.filter (fun entry => (Bson.field? entry "count").isSome) =
      counters := by
    apply List.filter_eq_self.2
    intro entry he
    rw [← List.map_snd_zip hc.length_eq.ge] at he
    obtain ⟨⟨counter, entry⟩, hp, rfl⟩ := List.mem_map.1 he
    obtain ⟨value, hv, -⟩ := Option.bind_eq_some_iff.1 ((List.forall₂_iff_zip.1 hc).2 hp).count
    rw [hv]
    rfl
  rwa [counterDocuments, hl, List.filter_append, hmetrics, hcounters]

theorem exists_pair_of_forall₂ {α β : Type} {R : α → β → Prop} {a a' : α} {bs : List β}
    (h : List.Forall₂ R [a, a'] bs) : ∃ b b', bs = [b, b'] ∧ R a b ∧ R a' b' := by
  obtain _ | ⟨hb, _ | ⟨hb', _ | _⟩⟩ := h
  exact ⟨_, _, rfl, hb, hb'⟩

/-- The documents of histograms whose names agree up to the cut. -/
theorem histogramDocuments_of_append (compress : Bytes → Bytes) {entries : List HistogramEntry}
    {long : String} (hl : long.length = 255) (h : ∀ e ∈ entries, ∃ t, e.name = long ++ t) :
    entries.filterMap (histogramDocument? (·.wire compress)) =
      (entries.map (·.histogram)).filterMap fun histogram =>
        (Histogram.Wire.encodeWith compress histogram).toOption.map fun wire =>
          .document [("name", .string ResponseTime.seriesName), ("value", .string wire),
            ("tags", .document [("TransactionName", .string long)])] := by
  rw [List.filterMap_map]
  apply List.filterMap_congr
  intro e he
  obtain ⟨t, ht⟩ := h e he
  have hcut : Text.cut 255 e.name = long := by rw [ht, Text.cut_append hl]
  have hne : e.name ≠ "" := by
    rw [ne_eq, ← cut_eq_empty_iff, hcut]
    rintro rfl
    exact absurd hl (by decide)
  have hf : tagsField e.tags = [("tags", .document [("TransactionName", .string long)])] := by
    rw [tagsField, isEmpty_tags, decide_eq_false hne, HistogramEntry.tags, if_neg hne,
      tagsDocument_primary, ← hcut]
    rfl
  have hd : ∀ wire, histogramDocument e wire = .document [("name", .string ResponseTime.seriesName),
      ("value", .string wire), ("tags", .document [("TransactionName", .string long)])] := by
    intro wire
    rw [histogramDocument, hf]
    rfl
  exact congrArg (Option.map · (e.wire compress).toOption) (funext hd)

/-- Two histograms whose names agree up to the cut have documents with the same tags. -/
theorem Layout.alike_histograms (h : Layout z c context d) {long t t' : String} {a a' : Histogram}
    (hc : c.histograms = [⟨long ++ t, a⟩, ⟨long ++ t', a'⟩]) (hl : long.length = 255)
    (hs : a.Sized) (hs' : a'.Sized) (hne : a ≠ a') :
    ∃ e e', listed d "histograms" = [e, e'] ∧ e ≠ e' ∧
      Bson.field? e "tags" = Bson.field? e' "tags" := by
  have hh := h.listed_histograms
  have hsized : ∀ entry ∈ c.histograms, (entry.wire z.compress).isOk := by
    rw [hc]
    intro entry hm
    rcases List.mem_pair.1 hm with rfl | rfl
    · exact isOk_wire z hs
    · exact isOk_wire z hs'
  rw [List.filter_eq_self.2 hsized, hc] at hh
  obtain ⟨e, e', hdocuments, he, he'⟩ := exists_pair_of_forall₂ hh
  refine ⟨e, e', hdocuments, fun hee => hne ?_, (he.tags_eq_iff he').2 ?_⟩
  · have hread := he.histogram hs
    rw [hee, he'.histogram hs'] at hread
    exact (Option.some.inj hread).symm
  · rw [Text.cut_append hl, Text.cut_append hl]

end Message

namespace Aggregation

theorem named_perform (s : Aggregation) (op : Operation) (h : s.histograms.Named) :
    (s.perform op).value.2.histograms.Named := by
  cases op with
  | recordSpan span =>
    rw [perform_recordSpan, histograms_recordSpan]
    have hoverall := h.record "" span.duration
    cases s.classification span with
    | named name => exact hoverall.record name span.duration
    | other | unknown => exact hoverall
  | recordLatency name duration => exact h.record name duration
  | drainHistograms | drain => exact HistogramTable.named_empty _
  | _ => exact h

theorem named_performAll (s : Aggregation) (ops : List Operation) (h : s.histograms.Named) :
    (s.performAll ops).value.2.histograms.Named := by
  induction ops generalizing s with
  | nil => exact h
  | cons op ops ih =>
    rw [performAll_cons]
    exact ih _ (s.named_perform op h)

/-- A table with the counters of some updates has no series twice. -/
theorem series_ne_of_recordAll (us : List CounterUpdate) :
    (CounterTable.recordAll .empty us).values.Pairwise (·.series ≠ ·.series) := by
  have hkeys : ((CounterTable.recordAll .empty us).values.map (·.key)).Nodup := by
    rw [CounterTable.map_key_values]
    exact nodup_eraseDups _
  refine (List.pairwise_map.1 hkeys).imp fun {c c'} hne hs => hne ?_
  rw [← Counter.key_series, hs, Counter.key_series]

theorem name_ne_of_named {t : HistogramTable} (h : t.Named) :
    t.entries.values.Pairwise (·.name ≠ ·.name) := by
  have hnames : (t.entries.values.map (·.name)).Nodup := by
    rw [Table.map_values_eq_keys _ h]
    exact t.entries.distinct
  exact List.pairwise_map.1 hnames

/-- The message of a state that was used in any way can be read if it is below the
length, whatever compresses the histograms. In what is read every counter and every
histogram with a wire form has its document; distinct ones have distinct series, and
their documents look alike exactly if the cut leaves nothing of the difference. -/
theorem told_apart (z : Zlib.Encoder) (requested capacity : Nat) (ops : List Operation)
    (context : MessageContext) {snapshot : Snapshot} :
    let s := ((new requested capacity).value.performAll ops).value.2
    let cycle := s.drain.value.1
    (s.assembleWith z.compress context).value.1 = .ok snapshot →
      (snapshot.message.length < 2 ^ 31 → (Bson.read? snapshot.message).isSome) ∧
      ∀ d, Bson.read? snapshot.message = some d →
        Message.CountersApart cycle.counters (Message.counterDocuments d) ∧
        Message.HistogramsApart z
          (cycle.histograms.filter fun e => (e.wire z.compress).isOk)
          (Message.listed d "histograms") := by
  intro s cycle h
  rw [assembled_eq] at h
  have hnew := value_new requested capacity
  have hcounters : cycle.counters.Pairwise (·.series ≠ ·.series) := by
    have hempty : (new requested capacity).value.counters = CounterTable.recordAll .empty [] := by
      rw [hnew]
      rfl
    obtain ⟨us, hus⟩ := exists_counters_performAll _ ⟨[], hempty⟩ ops
    have hvalues : cycle.counters = (CounterTable.recordAll .empty us).values :=
      congrArg Table.values hus
    rw [hvalues]
    exact series_ne_of_recordAll us
  have hnamed : s.histograms.Named := by
    apply named_performAll
    rw [hnew]
    exact HistogramTable.named_empty _
  have hhistograms : cycle.histograms.Pairwise (·.name ≠ ·.name) := name_ne_of_named hnamed
  refine ⟨fun hl => ?_, fun d hd => ?_⟩
  · rw [Cycle.read?_of_snapshot h (by omega)]
    rfl
  · obtain rfl := Cycle.eq_document_of_read? h hd
    have hlayout := Message.layout_document z cycle context
    exact ⟨Message.countersApart hlayout.forall₂_counters hcounters,
      Message.histogramsApart hlayout.listed_histograms (hhistograms.filter _)⟩

/-- Tags that differ beyond the cut, and a name with two values. The four counters are
four series, and three of them look alike. -/
theorem told_apart_of_cut :
    let long := String.ofList (List.replicate 64 'k')
    let ops : List Operation :=
      [.recordCounter ⟨"m", .ofList [⟨long ++ "a", "v"⟩], .zero, 1, true⟩,
        .recordCounter ⟨"m", .ofList [⟨long ++ "b", "v"⟩], .zero, 2, true⟩,
        .recordCounter ⟨"m", .ofList [⟨long, "v"⟩, ⟨long, "w"⟩], .zero, 3, true⟩,
        .recordCounter ⟨"m", .ofList [⟨long, "v"⟩], .zero, 4, false⟩]
    let s := ((new 2 10).value.performAll ops).value.2
    let context : MessageContext := ⟨default, 30, .none, [], 0⟩
    ∃ snapshot, (s.assemble context).value.1 = .ok snapshot ∧ snapshot.message.length < 2 ^ 31 ∧
      ∃ d, Bson.read? snapshot.message = some d ∧
        Message.CountersApart s.drain.value.1.counters (Message.counterDocuments d) ∧
        Message.HistogramsApart Zlib.encoder
          (s.drain.value.1.histograms.filter fun e => (e.wire Zlib.compress).isOk)
          (Message.listed d "histograms") := by
  intro long ops s context
  have hb : s.drain.value.1.badName? = none := by decide +kernel
  have hs := assembled_of_badName? Zlib.encoder.compress context hb
  have hl : (Bson.enclose
      (Bson.fieldsBytes (s.drain.value.1.document Zlib.compress context))).length < 2 ^ 31 := by
    decide +kernel
  obtain ⟨hread, hd⟩ := told_apart Zlib.encoder 2 10 ops context hs
  obtain ⟨d, hd'⟩ := Option.isSome_iff_exists.1 (hread hl)
  exact ⟨_, hs, hl, d, hd', hd d hd'⟩

/-- Two counters and two histograms that differ in one character beyond the cut. Their
documents differ in the numbers alone. -/
theorem alike_beyond_cut :
    let name := String.ofList (List.replicate 64 'k')
    let value := String.ofList (List.replicate 255 'v')
    let ops : List Operation :=
      [.recordCounter ⟨"m", .ofList [⟨name ++ "a", "v"⟩], .zero, 1, true⟩,
        .recordCounter ⟨"m", .ofList [⟨name ++ "b", "v"⟩], .zero, 2, true⟩,
        .recordLatency (value ++ "a") ⟨1000000⟩, .recordLatency (value ++ "b") ⟨2000000⟩]
    let s := ((new 2 10).value.performAll ops).value.2
    let context : MessageContext := ⟨default, 30, .none, [], 0⟩
    ∃ snapshot, (s.assemble context).value.1 = .ok snapshot ∧
      ∃ d, Bson.read? snapshot.message = some d ∧
        (∃ e e', Message.counterDocuments d = [e, e'] ∧ e ≠ e' ∧ Message.Alike e e') ∧
        ∃ e e', Message.listed d "histograms" = [e, e'] ∧ e ≠ e' ∧
          Bson.field? e "tags" = Bson.field? e' "tags" := by
  intro name value ops s context
  have hb : s.drain.value.1.badName? = none := by decide +kernel
  have hs := assembled_of_badName? Zlib.encoder.compress context hb
  have hlong : value.length = 255 := String.length_ofList.trans List.length_replicate
  have hhistograms : s.drain.value.1.histograms =
      [⟨value ++ "a", (Histogram.empty 2).observe ⟨1000000⟩⟩,
        ⟨value ++ "b", (Histogram.empty 2).observe ⟨2000000⟩⟩] := by decide +kernel
  have hl : (Bson.enclose
      (Bson.fieldsBytes (s.drain.value.1.document Zlib.compress context))).length < 2 ^ 32 := by
    have hnames : ∀ e ∈ s.drain.value.1.histograms, ∃ t, e.name = value ++ t := by
      rw [hhistograms]
      intro e he
      rcases List.mem_pair.1 he with rfl | rfl
      · exact ⟨"a", rfl⟩
      · exact ⟨"b", rfl⟩
    rw [Cycle.document, Message.histogramDocuments_of_append _ hlong hnames]
    decide +kernel
  have hlayout := Message.layout_document Zlib.encoder s.drain.value.1 context
  have hd :=
    Cycle.read?_of_snapshot ((s.assembled_eq Zlib.encoder.compress context).symm.trans hs) hl
  refine ⟨_, hs, _, hd, ?_, ?_⟩
  · have hcounters : s.drain.value.1.counters =
        [⟨"m", .ofList [⟨name ++ "a", "v"⟩], 1, .zero, true⟩,
          ⟨"m", .ofList [⟨name ++ "b", "v"⟩], 2, .zero, true⟩] := by decide +kernel
    have hc := hlayout.forall₂_counters
    rw [hcounters] at hc
    obtain ⟨e, e', hdocuments, he, he'⟩ := Message.exists_pair_of_forall₂ hc
    have hname : name.length = 64 := String.length_ofList.trans List.length_replicate
    have htags : (TagSet.ofList [⟨name ++ "a", "v"⟩]).truncated =
        (TagSet.ofList [⟨name ++ "b", "v"⟩]).truncated := by
      show [Tag.mk (Text.cut 64 (name ++ "a")) _] = [Tag.mk (Text.cut 64 (name ++ "b")) _]
      rw [Text.cut_append hname, Text.cut_append hname]
    refine ⟨e, e', hdocuments, ?_, (he.alike_iff he').2 ⟨rfl, rfl, .of_truncated htags⟩⟩
    rintro rfl
    exact absurd (he.count.symm.trans he'.count) (by decide)
  · have hsized : ((Histogram.empty 2).observe ⟨1000000⟩).Sized ∧
        ((Histogram.empty 2).observe ⟨2000000⟩).Sized := by
      unfold Histogram.Sized
      decide +kernel
    exact hlayout.alike_histograms hhistograms hlong hsized.1 hsized.2 (by decide)

end Aggregation
end SpanMetrics
