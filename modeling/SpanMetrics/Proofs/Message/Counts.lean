import SpanMetrics.Proofs.Message.Layout
import SpanMetrics.Proofs.Response.FanOut

/-!
# What a reader adds up

The counts and samples that a reader adds up over messages, in terms of the cycles.
The layout says enough of a document for this: the tags tell which entries belong
to a sum, and each entry tells its own number. Metrics have no tags and no count.
-/
namespace SpanMetrics

open Bson (Value Document)

/-- The cut names, each where it comes first. -/
def TagSet.wireNames (tags : TagSet) : List String := (tags.truncated.map (·.name)).eraseDups

namespace ResponseSeries

theorem names_truncated_tags (a : ResponseSeries) :
    a.tags.truncated.map (·.name) = a.kind.names.map (Text.cut Tag.nameLimit) := by
  rw [← a.names_tags, List.map_map, TagSet.truncated, List.map_map]
  rfl

theorem wireNames_tags (a : ResponseSeries) : a.tags.wireNames = a.kind.names := by
  rw [TagSet.wireNames, a.names_truncated_tags]
  cases a.kind <;> decide +kernel

theorem badName?_tags (a : ResponseSeries) : a.tags.badName? = none := by
  rw [TagSet.badName?, a.names_truncated_tags]
  cases a.kind <;> decide +kernel

end ResponseSeries

namespace CounterTable

variable (rs : List ResponseTime)

theorem badName?_of_mem_recordResponses {c : Counter}
    (h : c ∈ (recordResponses .empty rs).values) : c.tags.badName? = none := by
  obtain ⟨key, hg⟩ := (Table.mem_values_iff _).1 h
  obtain ⟨a, hs, -⟩ := exists_series_of_get? rs hg
  have ht : c.tags = a.tags := congrArg Series.tags hs
  rw [ht, a.badName?_tags]

/-- The entries of transactions alone count every response once. -/
theorem sum_overall_recordResponses :
    (((recordResponses .empty rs).values.filter (·.tags.wireNames = ["TransactionName"])).map
      (·.count)).sum = rs.length := by
  have hp : ∀ a : ResponseSeries, decide (a.tags.wireNames = ["TransactionName"]) =
      decide (a.kind = .overall) := by
    intro a
    rw [a.wireNames_tags]
    cases a.kind <;> decide
  have hone : (fun r : ResponseTime => r.series.countP (·.kind = .overall)) = fun _ => 1 := by
    funext r
    rw [ResponseTime.series]
    split <;> rfl
  have hs := sum_count_recordResponses rs
    (p := fun tags => decide (tags.wireNames = ["TransactionName"])) hp
  rw [hs, hone]
  simp

/-- The entries of failures count every failed response once. -/
theorem sum_failures_recordResponses :
    (((recordResponses .empty rs).values.filter ("Errors" ∈ ·.tags.wireNames)).map
      (·.count)).sum = rs.countP (·.failed) := by
  have hp : ∀ a : ResponseSeries, decide ("Errors" ∈ a.tags.wireNames) =
      decide (a.kind = .failures) := by
    intro a
    rw [a.wireNames_tags]
    cases a.kind <;> decide
  have hone : ∀ r : ResponseTime,
      r.series.countP (·.kind = .failures) = [r].countP (·.failed) := by
    intro r
    rw [ResponseTime.series, List.countP_singleton]
    cases r.failed <;> rfl
  have hs := sum_count_recordResponses rs
    (p := fun tags => decide ("Errors" ∈ tags.wireNames)) hp
  rw [hs]
  congr 1
  clear hs
  induction rs with
  | nil => rfl
  | cons r rs ih => rw [List.map_cons, List.sum_cons, ih, hone, ← List.countP_append]; rfl

end CounterTable

/-- The counters of responses never fail a message. -/
theorem Cycle.badName?_of_responses {c : Cycle} (rs : List ResponseTime)
    (h : c.counters = (CounterTable.recordResponses .empty rs).values) : c.badName? = none := by
  rw [badName?, h, List.findSome?_eq_none_iff]
  exact fun counter hm => CounterTable.badName?_of_mem_recordResponses rs hm

namespace Message

theorem mapM_concat_eq_some {α β : Type} {f : α → Option β} {items : List α} {a : α} {all : List β} :
    (items ++ [a]).mapM f = some all ↔
      ∃ bs b, items.mapM f = some bs ∧ f a = some b ∧ bs ++ [b] = all := by
  simp only [List.mapM_append, List.mapM_cons, List.mapM_nil, Option.bind_eq_bind,
    Option.pure_def, Option.bind_eq_some_iff, Option.some.injEq]
  constructor
  · rintro ⟨bs, hbs, last, ⟨b, hb, rest, rfl, rfl⟩, rfl⟩
    exact ⟨bs, b, hbs, hb, rfl⟩
  · rintro ⟨bs, b, hbs, hb, rfl⟩
    exact ⟨bs, hbs, [b], ⟨b, hb, [], rfl, rfl⟩, rfl⟩

/-- What is read from documents that tell of entries, one from each. -/
theorem mapM_filter_of_forall₂ {α β : Type} {R : α → Document → Prop} {f : Document → Option β}
    {g : α → β} {p : α → Bool} {q : Document → Bool} {entries : List α} {documents : List Document}
    (h : List.Forall₂ R entries documents) (hq : ∀ a d, R a d → q d = p a)
    (hf : ∀ a ∈ entries, ∀ d, R a d → f d = some (g a)) :
    (documents.filter q).mapM f = some ((entries.filter p).map g) := by
  induction h with
  | nil => rfl
  | @cons a d entries documents hr _ ih =>
    obtain ⟨ha, hrest⟩ := List.forall_mem_cons.1 hf
    rw [List.filter_cons, List.filter_cons, hq a d hr]
    split
    · rw [List.mapM_cons, ha d hr, ih hrest]
      rfl
    · exact ih hrest

/-! ## Entries -/

theorem tagNames_of_tellsTags {tags : TagSet} {d : Document}
    (h : TellsTags tags (Bson.field? d "tags")) : tagNames d = tags.wireNames := by
  rw [TagSet.wireNames, TagSet.truncated, List.map_map]
  unfold TellsTags at h
  unfold tagNames
  split at h
  · next he =>
    rw [List.isEmpty_iff] at he
    rw [h, he]
    rfl
  · obtain ⟨t, ht, hk, -⟩ := h
    rw [ht]
    exact hk

theorem TellsCounter.count?_eq {c : Counter} {d : Document} (h : TellsCounter c d)
    (hc : 0 ≤ c.count ∧ c.count < 2 ^ 63) : count? d = some c.count := by
  rw [h.count, Int64.toInt_ofInt_of_le (by omega) hc.2]

/-- Only the overall histogram has no tags. -/
theorem TellsHistogram.isNone_tags {z : Zlib.Encoder} {e : HistogramEntry} {d : Document}
    (h : TellsHistogram z e d) : (Bson.field? d "tags").isNone = decide (e.name = "") := by
  rw [h.tags]
  split
  · next hn => rw [decide_eq_true hn]; rfl
  · next hn => rw [decide_eq_false hn]; rfl

/-! ## Messages -/

variable {z : Zlib.Encoder} {c : Cycle} {context : MessageContext} {d : Document}

theorem countOf_eq_sum (kind : List String → Bool) (messages : List Document) :
    countOf kind messages = ((countersOf kind messages).mapM count?).map List.sum := rfl

theorem samplesOf_eq_sum (messages : List Document) :
    samplesOf messages = ((overallOf messages).mapM histogram?).map fun histograms =>
      (histograms.map Histogram.total).sum := by
  simp only [samplesOf, List.sum_eq_foldr, List.foldr_map]

/-- Metrics have no tags. -/
theorem filter_metrics {kind : List String → Bool} (hk : kind [] = false)
    (metrics : List (String × Value)) :
    (metrics.map metricFields).filter (kind <| tagNames ·) = [] := by
  rw [List.filter_eq_nil_iff]
  intro document hd
  obtain ⟨m, -, rfl⟩ := List.mem_map.1 hd
  show ¬kind [] = true
  rw [hk]
  exact Bool.false_ne_true

/-- A reader of one message adds up the counts of the counters. -/
theorem Layout.countOf_eq (h : Layout z c context d) {kind : List String → Bool}
    (hk : kind [] = false) (hb : ∀ counter ∈ c.counters, 0 ≤ counter.count ∧ counter.count < 2 ^ 63) :
    countOf kind [d] =
      some ((c.counters.filter (kind ·.tags.wireNames)).map (·.count)).sum := by
  obtain ⟨counters, hl, hc⟩ := h.listed_measurements
  have hd : countersOf kind [d] = counters.filter (kind <| tagNames ·) := by
    rw [countersOf, List.flatMap_singleton, hl, List.filter_append, filter_metrics hk,
      List.nil_append]
  have hr : (counters.filter (kind <| tagNames ·)).mapM count? =
      some ((c.counters.filter (kind ·.tags.wireNames)).map (·.count)) :=
    mapM_filter_of_forall₂ hc (fun _ _ ht => congrArg kind (tagNames_of_tellsTags ht.tags))
      fun counter hmem _ ht => ht.count?_eq (hb counter hmem)
  rw [countOf_eq_sum, hd, hr, Option.map_some]

/-- A reader of one message adds up the samples of the overall histogram. -/
theorem Layout.samplesOf_eq (h : Layout z c context d)
    (hs : ∀ e ∈ c.histograms, e.histogram.Sized) :
    samplesOf [d] =
      some ((c.histograms.filter (·.name = "")).map (·.histogram.total)).sum := by
  have he := h.listed_histograms
  rw [List.filter_eq_self.2 fun e hmem => h.encoded e hmem (hs e hmem)] at he
  have hd : overallOf [d] =
      (listed d "histograms").filter fun entry => (Bson.field? entry "tags").isNone := by
    rw [overallOf, List.flatMap_singleton]
  have hr : ((listed d "histograms").filter fun entry =>
      (Bson.field? entry "tags").isNone).mapM histogram? =
      some ((c.histograms.filter (·.name = "")).map (·.histogram)) :=
    mapM_filter_of_forall₂ he (fun _ _ ht => ht.isNone_tags)
      fun e hmem _ ht => ht.histogram (hs e hmem)
  rw [samplesOf_eq_sum, hd, hr, Option.map_some, List.map_map]
  rfl

theorem countOf_append {kind : List String → Bool} {ds es : List Document} {a b : Int}
    (ha : countOf kind ds = some a) (hb : countOf kind es = some b) :
    countOf kind (ds ++ es) = some (a + b) := by
  rw [countOf_eq_sum] at ha hb ⊢
  obtain ⟨as, hda, rfl⟩ := Option.map_eq_some_iff.1 ha
  obtain ⟨bs, hdb, rfl⟩ := Option.map_eq_some_iff.1 hb
  have happ : countersOf kind (ds ++ es) = countersOf kind ds ++ countersOf kind es := by
    rw [countersOf, List.flatMap_append, List.filter_append]
    rfl
  rw [happ, List.mapM_append, hda, hdb]
  exact congrArg some List.sum_append

theorem samplesOf_append {ds es : List Document} {a b : Nat}
    (ha : samplesOf ds = some a) (hb : samplesOf es = some b) :
    samplesOf (ds ++ es) = some (a + b) := by
  rw [samplesOf_eq_sum] at ha hb ⊢
  obtain ⟨as, hda, rfl⟩ := Option.map_eq_some_iff.1 ha
  obtain ⟨bs, hdb, rfl⟩ := Option.map_eq_some_iff.1 hb
  have happ : overallOf (ds ++ es) = overallOf ds ++ overallOf es := by
    rw [overallOf, List.flatMap_append, List.filter_append]
    rfl
  rw [happ, List.mapM_append, hda, hdb]
  show some ((as ++ bs).map Histogram.total).sum = _
  rw [List.map_append, List.sum_append]

end Message
end SpanMetrics
