import SpanMetrics.Message.Snapshot
import SpanMetrics.Proofs.Bson.RoundTrip
import SpanMetrics.Proofs.Message.Tags

/-!
# What a snapshot gives

When a closed cycle becomes a message, and which one. Every key of a message is
fixed or a position, except for the names of tags: the first cut name with a NUL
character is the only thing that fails a snapshot. The histograms are encoded one
by one, with any compression, and what the encoder says of one has no effect on the
others.
-/
namespace SpanMetrics

open Bson (Value Document)

/-- The first cut name that cannot be written. -/
def TagSet.badName? (tags : TagSet) : Option String :=
  (tags.truncated.map (·.name)).find? (!Bson.keyOk ·)

namespace Message

/-! ## Optional fields -/

@[simp] theorem keys_optional (key : String) (value : Option Value) :
    Bson.keys (optional key value) = if value.isSome then [key] else [] := by
  cases value <;> rfl

@[simp] theorem field?_optional (key other : String) (value : Option Value) :
    Bson.field? (optional key value) other = if other = key then value else none := by
  cases value with
  | none => simp [optional]
  | some value => exact Bson.field?_cons key other value []

theorem badKeyOfFields?_optional {key : String} (h : Bson.keyOk key) (value : Option Value) :
    Bson.badKeyOfFields? (optional key value) = value.bind Value.badKey? := by
  cases value with
  | none => rfl
  | some value =>
    show Bson.badKeyOfFields? [(key, value)] = _
    rw [Bson.badKeyOfFields?_cons h]
    exact Option.or_none

/-! ## Keys of the documents in a message -/

theorem badKey?_metric (name : String) (value : MetricValue) :
    (value.document name).badKey? = none := by
  have hn : Bson.keyOk "name" := by decide
  have hv : Bson.keyOk "value" := by decide
  show Bson.badKeyOfFields? [("name", .string name), ("value", value.toBson)] = none
  rw [Bson.badKeyOfFields?_cons hn, Bson.badKeyOfFields?_cons hv]
  cases value <;> rfl

theorem badKeyOfFields?_tagsField (tags : TagSet) :
    Bson.badKeyOfFields? (tagsField tags) = tags.badName? := by
  have ht : Bson.keyOk "tags" := by decide
  rw [tagsField, badKeyOfFields?_optional ht]
  split
  · next h =>
    rw [TagSet.isEmpty, List.isEmpty_iff] at h
    rw [TagSet.badName?, TagSet.truncated, h]
    rfl
  · exact badKey?_tagsDocument tags

theorem badKey?_counterDocument (c : Counter) :
    (counterDocument c).badKey? = c.tags.badName? := by
  have hp :
      Bson.badKeyOfFields? [("name", .string c.name), ("count", .ofInt c.kept.toInt)] = none := by
    have hn : Bson.keyOk "name" := by decide
    have hc : Bson.keyOk "count" := by decide
    rw [Bson.badKeyOfFields?_cons hn, Bson.badKeyOfFields?_cons hc, Value.ofInt]
    split <;> rfl
  have hs : Bson.keyOk "sum" := by decide
  have hv : (if c.reportSum then some (Value.double c.sum) else none).bind Value.badKey? = none := by
    split <;> rfl
  show Bson.badKeyOfFields? (_ ++ _ ++ tagsField c.tags) = _
  rw [Bson.badKeyOfFields?_append, Bson.badKeyOfFields?_append, hp, badKeyOfFields?_optional hs, hv,
    badKeyOfFields?_tagsField, Option.none_or, Option.none_or]

/-- The only tag of a histogram has a fixed name. -/
theorem badName?_tags (e : HistogramEntry) : e.tags.badName? = none := by
  have hk : Bson.keyOk (Text.cut Tag.nameLimit "TransactionName") := by decide
  unfold HistogramEntry.tags
  split
  · rfl
  · show [Text.cut Tag.nameLimit "TransactionName"].find? (!Bson.keyOk ·) = none
    rw [List.find?_singleton, hk]
    rfl

theorem badKey?_histogramDocument (e : HistogramEntry) (wire : String) :
    (histogramDocument e wire).badKey? = none := by
  have hn : Bson.keyOk "name" := by decide
  have hv : Bson.keyOk "value" := by decide
  show Bson.badKeyOfFields? (_ ++ tagsField e.tags) = none
  rw [Bson.badKeyOfFields?_append, Bson.badKeyOfFields?_cons hn, Bson.badKeyOfFields?_cons hv,
    badKeyOfFields?_tagsField, badName?_tags]
  rfl

theorem bind_badKey?_texts (text : Option String) :
    (text.map Value.string).bind Value.badKey? = none := by
  cases text <;> rfl

theorem badKeyOfFields?_identity (h : Host.Identity) : Bson.badKeyOfFields? (identity h) = none := by
  have hi : (if h.ipAddresses.isEmpty then none
      else some (Value.ofTexts h.ipAddresses)).bind Value.badKey? = none := by
    split
    · rfl
    · exact Bson.badKey?_ofTexts _
  unfold identity
  simp (disch := decide) only [Bson.badKeyOfFields?_append, badKeyOfFields?_optional,
    Bson.badKeyOfFields?_cons, bind_badKey?_texts, hi, Bson.badKey?_ofTexts, Value.badKey?,
    Bson.badKeyOfFields?_nil, Option.or_none]

/-- Of the measurements only the counters have keys that may fail. -/
theorem badKey?_measurements (c : Cycle) (context : MessageContext) :
    (Value.ofItems (measurements c context)).badKey? =
      c.counters.findSome? (·.tags.badName?) := by
  have hs : (samplerMetrics c.sampler).findSome? Value.badKey? = none := by
    simp [samplerMetrics, badKey?_metric]
  have hq : (queueMetrics c.queue).findSome? Value.badKey? = none := by
    simp [queueMetrics, badKey?_metric]
  have hh : (hostMetrics context.readings).findSome? Value.badKey? = none := by
    rw [List.findSome?_eq_none_iff]
    intro item hi
    obtain ⟨⟨name, value⟩, -, hv⟩ := List.mem_filterMap.1 hi
    obtain ⟨value, -, rfl⟩ := Option.map_eq_some_iff.1 hv
    exact badKey?_metric name value
  have hr : (context.runtime.map fun m => m.value.document m.name).findSome? Value.badKey? =
      none := by
    simp [List.findSome?_map, badKey?_metric, Function.comp_def]
  have hc : (c.counters.map counterDocument).findSome? Value.badKey? =
      c.counters.findSome? (·.tags.badName?) := by
    rw [List.findSome?_map]
    exact congrArg (c.counters.findSome? ·) (funext badKey?_counterDocument)
  rw [Bson.badKey?_ofItems, measurements, List.findSome?_append, List.findSome?_append,
    List.findSome?_append, List.findSome?_append, hs, hq, hh, hr, hc]
  rfl

theorem badKeyOfFields?_document (c : Cycle) (context : MessageContext) {histograms : List Value}
    (h : ∀ e ∈ histograms, e.badKey? = none) :
    Bson.badKeyOfFields? (document c context histograms) =
      c.counters.findSome? (·.tags.badName?) := by
  have hh : (Value.ofItems histograms).badKey? = none := by
    rw [Bson.badKey?_ofItems, List.findSome?_eq_none_iff]
    exact h
  have ho : (if c.overflow then some (Value.bool true) else none).bind Value.badKey? = none := by
    split <;> rfl
  unfold document
  simp (disch := decide) only [Bson.badKeyOfFields?_append, badKeyOfFields?_optional,
    Bson.badKeyOfFields?_cons, badKeyOfFields?_identity, badKey?_measurements, hh, ho,
    Value.badKey?, Bson.badKeyOfFields?_nil, Option.or_none, Option.none_or]

/-! ## Histograms one by one -/

/-- The items that have a value stand in the order of their values. -/
theorem forall₂_filter_filterMap {α β : Type} {R : α → β → Prop} {p : α → Bool}
    {f : α → Option β} (hp : ∀ a, (f a).isSome = p a) (hR : ∀ a b, f a = some b → R a b)
    (items : List α) : List.Forall₂ R (items.filter p) (items.filterMap f) := by
  induction items with
  | nil => exact .nil
  | cons a items ih =>
    have ha := hp a
    cases hf : f a with
    | none =>
      rw [hf] at ha
      rw [List.filterMap_cons_none hf, List.filter_cons_of_neg (by simp [← ha])]
      exact ih
    | some b =>
      rw [hf] at ha
      rw [List.filterMap_cons_some hf, List.filter_cons_of_pos ha.symm]
      exact .cons (hR a b hf) ih

/-- The document of a histogram, if it has a wire form. -/
def histogramDocument? (encode : HistogramEntry → Except HistogramError String)
    (e : HistogramEntry) : Option Value :=
  (encode e).toOption.map (histogramDocument e)

/-- What becomes of a histogram. -/
def outcome (encode : HistogramEntry → Except HistogramError String) (e : HistogramEntry) :
    EntryOutcome :=
  match encode e with
  | .ok _ => .encoded e.name
  | .error cause => .omitted e.name cause

theorem isEncoded_outcome (encode : HistogramEntry → Except HistogramError String)
    (e : HistogramEntry) : (outcome encode e).isEncoded = (encode e).isOk := by
  unfold outcome
  cases encode e <;> rfl

theorem value_encodeHistogram (encode : HistogramEntry → Except HistogramError String)
    (e : HistogramEntry) :
    (encodeHistogram encode e).value = (histogramDocument? encode e, outcome encode e) := by
  unfold encodeHistogram histogramDocument? outcome
  cases encode e <;> rfl

theorem value_encodeHistograms (encode : HistogramEntry → Except HistogramError String)
    (entries : List HistogramEntry) :
    (encodeHistograms encode entries).value =
      (entries.filterMap (histogramDocument? encode), entries.map (outcome encode)) := by
  simp only [encodeHistograms, Logged.value_bind, Logged.value_mapM, Logged.value_pure,
    value_encodeHistogram, List.filterMap_map, List.map_map, Function.comp_def]

theorem badKey?_of_mem_histogramDocuments
    {encode : HistogramEntry → Except HistogramError String} {entries : List HistogramEntry} :
    ∀ d ∈ entries.filterMap (histogramDocument? encode), d.badKey? = none := by
  intro d hd
  obtain ⟨e, -, he⟩ := List.mem_filterMap.1 hd
  obtain ⟨wire, -, rfl⟩ := Option.map_eq_some_iff.1 he
  exact badKey?_histogramDocument e wire

end Message

namespace HistogramEntry

/-- The wire form of an entry, by some compression. -/
def wire (compress : Bytes → Bytes) (e : HistogramEntry) : Except HistogramError String :=
  Histogram.Wire.encodeWith compress e.histogram

end HistogramEntry

namespace Cycle

/-- The first key that fails the message of a cycle. -/
def badName? (c : Cycle) : Option String := c.counters.findSome? (·.tags.badName?)

variable (compress : Bytes → Bytes) (c : Cycle) (context : MessageContext)

/-- The document of a cycle with all histograms that have a wire form. -/
def document : Document :=
  Message.document c context (c.histograms.filterMap (Message.histogramDocument? (·.wire compress)))

theorem badKeyOfFields?_document :
    Bson.badKeyOfFields? (c.document compress context) = c.badName? :=
  Message.badKeyOfFields?_document c context Message.badKey?_of_mem_histogramDocuments

/-- A snapshot is the document and the outcomes of the histograms, unless a tag
name fails it. -/
theorem value_snapshot :
    (c.snapshotWith compress context).value =
      c.badName?.elim
        (.ok ⟨Bson.enclose (Bson.fieldsBytes (c.document compress context)),
          c.histograms.map (Message.outcome (·.wire compress))⟩)
        fun name => .error (.encode (.nulInKey name)) := by
  have he : (Message.encodeHistograms
      (fun e => Histogram.Wire.encodeWith compress e.histogram) c.histograms).value =
        (c.histograms.filterMap (Message.histogramDocument? (·.wire compress)),
          c.histograms.map (Message.outcome (·.wire compress))) :=
    Message.value_encodeHistograms _ _
  have hw : Bson.write (c.document compress context) =
      c.badName?.elim (.ok (Bson.enclose (Bson.fieldsBytes (c.document compress context))))
        fun name => .error (.nulInKey name) := by
    rw [Bson.write, badKeyOfFields?_document]
    cases c.badName? <;> rfl
  unfold snapshotWith
  rw [Logged.value_bind, he]
  dsimp only
  rw [← document, hw]
  cases c.badName? <;> rfl

variable {compress c context}

/-- The message of a snapshot is its document, all of whose keys can be written. -/
theorem write_of_snapshot {s : Snapshot} (h : (c.snapshotWith compress context).value = .ok s) :
    c.badName? = none ∧ Bson.write (c.document compress context) = .ok s.message := by
  rw [value_snapshot] at h
  cases hb : c.badName? with
  | some name => rw [hb] at h; cases h
  | none =>
    rw [hb] at h
    obtain rfl := Except.ok.inj h
    rw [Bson.write, badKeyOfFields?_document, hb]
    exact ⟨rfl, rfl⟩

/-- A message that fits is read back whole. -/
theorem read?_of_snapshot {s : Snapshot} (h : (c.snapshotWith compress context).value = .ok s)
    (hl : s.message.length < 2 ^ 32) :
    Bson.read? s.message = some (c.document compress context) := by
  rw [Bson.read?_of_write (write_of_snapshot h).2, if_pos hl]

/-- A message is read back as nothing but its own document. -/
theorem eq_document_of_read? {s : Snapshot} {d : Bson.Document}
    (h : (c.snapshotWith compress context).value = .ok s) (hd : Bson.read? s.message = some d) :
    d = c.document compress context := by
  rw [Bson.read?_of_write (write_of_snapshot h).2] at hd
  split at hd
  · exact (Option.some.inj hd).symm
  · cases hd

end Cycle
end SpanMetrics
