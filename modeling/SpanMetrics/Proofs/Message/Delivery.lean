import SpanMetrics.Message.Delivery
import SpanMetrics.Proofs.Aggregation.Spans
import SpanMetrics.Proofs.Message.Confinement
import SpanMetrics.Proofs.Message.Counts

/-!
# Every request is delivered once

What a reader adds up over all messages of a state that is fed by requests alone.
`Fed` says what the state holds of the requests since its last message, `Tells`
what a reader finds of requests in messages. A message takes over all that the
state holds, so after any activities the messages tell of the requests before the
last one, and the state holds the rest.
-/
namespace SpanMetrics

open Bson (Value Document)

namespace Message

/-- What a reader of messages adds up is right for these requests: their number, the
number of failed ones and the number of latencies that have a bucket. -/
structure Tells (documents : List Document) (spans : List CompletedSpan) : Prop where
  requests : countOf (· = ["TransactionName"]) documents = some (spans.length : Int)
  failures : countOf ("Errors" ∈ ·) documents = some (spans.countP (·.failed) : Int)
  samples : samplesOf documents =
    some (spans.countP (·.duration.micros < Histogram.ceiling))

theorem tells_nil : Tells [] [] := ⟨rfl, rfl, rfl⟩

theorem Tells.append {ds es : List Document} {spans more : List CompletedSpan}
    (hd : Tells ds spans) (he : Tells es more) : Tells (ds ++ es) (spans ++ more) := by
  constructor
  · rw [countOf_append hd.requests he.requests, List.length_append, Nat.cast_add]
  · rw [countOf_append hd.failures he.failures, List.countP_append, Nat.cast_add]
  · rw [samplesOf_append hd.samples he.samples, List.countP_append]

end Message

namespace Aggregation

/-- A state that was fed by these requests alone since its cycle began. -/
structure Fed (p : Precision) (spans : List CompletedSpan) (s : Aggregation) : Prop where
  gathered : ∃ limit, Gathered p limit spans s
  counted : ∃ rs : List ResponseTime, s.counters = CounterTable.recordResponses .empty rs ∧
    rs.map (·.failed) = spans.map (·.failed)

variable {z : Zlib.Encoder} {p : Precision} {spans : List CompletedSpan} {s : Aggregation}

theorem fed_empty (p : Precision) (limit : Nat) :
    Fed p [] ⟨.new limit, .empty, ⟨p, .empty⟩, .zero, .zero⟩ := by
  have h : Opened p limit (new p.val limit).value := .created p limit
  exact ⟨⟨limit, h.eq ▸ h.gathered⟩, [], rfl, rfl⟩

theorem Fed.recordSpan (h : Fed p spans s) (span : CompletedSpan) :
    Fed p (spans ++ [span]) (s.recordSpan span).value := by
  obtain ⟨limit, hg⟩ := h.gathered
  obtain ⟨rs, hc, hf⟩ := h.counted
  refine ⟨⟨limit, hg.recordSpan span⟩,
    rs ++ [span.response (s.classification span).transaction], ?_, ?_⟩
  · rw [counters_recordSpan, CounterTable.recordResponses_concat, hc]
  · rw [List.map_append, List.map_append, hf]
    rfl

theorem Fed.stage (h : Fed p spans s) (capacity : Nat) :
    Fed p spans { s with registry := s.registry.stage capacity } := by
  obtain ⟨limit, hg⟩ := h.gathered
  exact ⟨⟨limit, hg.registry.stage capacity, hg.precision, hg.entries⟩, h.counted⟩

theorem Fed.drain (h : Fed p spans s) : Fed p [] s.drain.value.2 := by
  obtain ⟨limit, hg⟩ := h.gathered
  have hn := drain_next s
  rw [hg.precision] at hn
  rw [hn]
  exact fed_empty p _

/-! ## What a state gives to its message -/

theorem Fed.badName? (h : Fed p spans s) : s.drain.value.1.badName? = none := by
  obtain ⟨rs, hc, -⟩ := h.counted
  exact Cycle.badName?_of_responses rs ((counters_drain s).trans (congrArg Table.values hc))

theorem histograms_drain (s : Aggregation) :
    s.drain.value.1.histograms = s.histograms.entries.values := rfl

theorem Fed.sized (h : Fed p spans s) (hl : spans.length < 2 ^ 63) :
    ∀ e ∈ s.drain.value.1.histograms, e.histogram.Sized := by
  obtain ⟨limit, hg⟩ := h.gathered
  rw [histograms_drain]
  intro e he
  obtain ⟨n, hn⟩ := (Table.mem_values_iff _).1 he
  rw [hg.entries] at hn
  split at hn
  · obtain rfl := Option.some.inj hn
    refine Histogram.gather_sized p (lt_of_le_of_lt ?_ hl)
    rw [CompletedSpan.latencies, List.length_map]
    exact List.length_filter_le _ _
  · cases hn

/-- The overall histogram has a sample for each request whose latency has a bucket. -/
theorem Fed.samples (h : Fed p spans s) :
    ((s.drain.value.1.histograms.filter (·.name = "")).map (·.histogram.total)).sum =
      spans.countP (·.duration.micros < Histogram.ceiling) := by
  obtain ⟨limit, hg⟩ := h.gathered
  have hname : ∀ k e, s.histograms.entries.get? k = some e →
      (decide (e.name = "") = true ↔ k = "") := by
    intro k e he
    rw [hg.entries] at he
    split at he
    · obtain rfl := Option.some.inj he
      exact decide_eq_true_iff
    · cases he
  rw [histograms_drain, Table.filter_values_eq_toList _ _ "" hname, hg.entries]
  by_cases hs : spans = []
  · have hm : "" ∉ CompletedSpan.seriesNames limit spans := by
      simp [hs, CompletedSpan.seriesNames, CompletedSpan.admittedNames]
    rw [if_neg hm, hs]
    rfl
  · have hm : "" ∈ CompletedSpan.seriesNames limit spans := by
      rw [CompletedSpan.seriesNames, if_neg hs]
      exact List.mem_append_left _ List.mem_cons_self
    rw [if_pos hm]
    simp only [Option.toList_some, List.map_singleton, List.sum_singleton,
      HistogramEntry.gathered, CompletedSpan.latencies_empty, Histogram.total_gather,
      List.countP_map]
    rfl

theorem Fed.count_bounds (h : Fed p spans s) (hl : spans.length < 2 ^ 63) :
    ∀ c ∈ s.drain.value.1.counters, 0 ≤ c.count ∧ c.count < 2 ^ 63 := by
  obtain ⟨rs, hc, hf⟩ := h.counted
  have hlen : rs.length = spans.length := by simpa using congrArg List.length hf
  rw [counters_drain, hc]
  intro c hm
  have hb := CounterTable.count_bounds rs hm
  omega

/-- The message of a state tells of the requests that the state was fed with. -/
theorem Fed.tells (h : Fed p spans s) (hl : spans.length < 2 ^ 63) {context : MessageContext}
    {d : Document} (hd : Message.Layout z s.drain.value.1 context d) :
    Message.Tells [d] spans := by
  obtain ⟨rs, hc, hf⟩ := h.counted
  have hlen : rs.length = spans.length := by simpa using congrArg List.length hf
  have hfail : rs.countP (·.failed) = spans.countP (·.failed) := by
    have hp := congrArg (List.countP id) hf
    rwa [List.countP_map, List.countP_map] at hp
  have hb := h.count_bounds hl
  constructor
  · rw [hd.countOf_eq (by decide) hb, counters_drain, hc]
    exact congrArg some ((CounterTable.sum_overall_recordResponses rs).trans (by rw [hlen]))
  · rw [hd.countOf_eq (by decide) hb, counters_drain, hc]
    exact congrArg some ((CounterTable.sum_failures_recordResponses rs).trans (by rw [hfail]))
  · rw [hd.samplesOf_eq (h.sized hl), h.samples]

/-- A message of a state that was fed by requests alone is made, no histogram is left
out of it, and what is read back of it tells of these requests. -/
theorem Fed.assemble (h : Fed p spans s) (z : Zlib.Encoder) (hl : spans.length < 2 ^ 63)
    (context : MessageContext) :
    ∃ snapshot, (s.assembleWith z.compress context).value.1 = .ok snapshot ∧
      snapshot.omitted = 0 ∧
      (snapshot.message.length < 2 ^ 31 → ∃ d, Bson.read? snapshot.message = some d) ∧
      ∀ d, Bson.read? snapshot.message = some d → Message.Tells [d] spans := by
  have hs := s.drain.value.1.value_snapshot z.compress context
  rw [h.badName?, Option.elim_none] at hs
  refine ⟨_, (s.assembled_eq z.compress context).trans hs, ?_, fun hm => ?_, fun d hd => ?_⟩
  · rw [Snapshot.omitted, List.countP_eq_zero]
    intro outcome ho
    obtain ⟨e, he, rfl⟩ := List.mem_map.1 ho
    rw [Message.isEncoded_outcome, Message.isOk_wire z (h.sized hl e he)]
    exact Bool.false_ne_true
  · exact ⟨_, Cycle.read?_of_snapshot hs (by omega)⟩
  · obtain rfl := Cycle.eq_document_of_read? hs hd
    exact h.tells hl (Message.layout_document z _ context)

theorem value_act_assemble (compress : Bytes → Bytes) (s : Aggregation)
    (context : MessageContext) :
    (s.act compress (.assemble context)).value =
      (some (s.assembleWith compress context).value.1, s.drain.value.2) := by
  simp only [act, assembleWith, Logged.value_bind, Logged.value_pure]

/-! ## Many messages -/

theorem value_actAll_append (compress : Bytes → Bytes) (s : Aggregation)
    (activities more : List Activity) :
    (s.actAll compress (activities ++ more)).value =
      ((s.actAll compress activities).value.1 ++
          ((s.actAll compress activities).value.2.actAll compress more).value.1,
        ((s.actAll compress activities).value.2.actAll compress more).value.2) := by
  induction activities generalizing s with
  | nil => rfl
  | cons activity activities ih =>
    simp only [List.cons_append, actAll, Logged.value_bind, Logged.value_pure, ih,
      List.append_assoc]

theorem value_actAll_concat (compress : Bytes → Bytes) (s : Aggregation)
    (activities : List Activity) (activity : Activity) :
    (s.actAll compress (activities ++ [activity])).value =
      ((s.actAll compress activities).value.1 ++
          ((s.actAll compress activities).value.2.act compress activity).value.1.toList,
        ((s.actAll compress activities).value.2.act compress activity).value.2) := by
  rw [value_actAll_append]
  simp [actAll]

end Aggregation

namespace Activity

theorem closedSpans_concat (activities : List Activity) (activity : Activity) :
    closedSpans (activities ++ [activity]) =
      if activity.isAssemble then spans activities else closedSpans activities := by
  unfold closedSpans
  rw [List.reverse_concat, List.dropWhile_cons]
  cases activity <;> simp [isAssemble, spans, span?]

theorem spans_concat (activities : List Activity) (activity : Activity) :
    spans (activities ++ [activity]) = spans activities ++ activity.span?.toList := by
  unfold spans
  rw [List.filterMap_append]
  cases activity <;> rfl

end Activity

namespace Aggregation

variable {z : Zlib.Encoder} {p : Precision}

/-- What activities have led to: messages that tell of the requests before the last of
them, and a state that holds the other requests. -/
structure Delivered (p : Precision) (activities : List Activity)
    (results : List (Except SnapshotError Snapshot)) (s : Aggregation) : Prop where
  held : ∃ spans, Activity.spans activities = Activity.closedSpans activities ++ spans ∧
    Fed p spans s
  told : ∃ snapshots : List Snapshot, results = snapshots.map .ok ∧
    (∀ m ∈ snapshots, m.omitted = 0) ∧
    ((∀ m ∈ snapshots, m.message.length < 2 ^ 31) →
      ∃ documents, snapshots.mapM (Bson.read? ·.message) = some documents) ∧
    ∀ documents, snapshots.mapM (Bson.read? ·.message) = some documents →
      Message.Tells documents (Activity.closedSpans activities)

theorem Delivered.act {activities : List Activity}
    {results : List (Except SnapshotError Snapshot)} {s : Aggregation}
    (h : Delivered p activities results s) (activity : Activity)
    (hl : (Activity.spans activities).length < 2 ^ 63) :
    Delivered p (activities ++ [activity])
      (results ++ (s.act z.compress activity).value.1.toList)
      (s.act z.compress activity).value.2 := by
  obtain ⟨spans, hspans, hfed⟩ := h.held
  cases activity with
  | record span =>
    refine ⟨⟨spans ++ [span], ?_, hfed.recordSpan span⟩, ?_⟩
    · rw [Activity.spans_concat, Activity.closedSpans_concat, hspans, List.append_assoc]
      rfl
    · rw [Activity.closedSpans_concat]
      show ∃ snapshots : List Snapshot, results ++ [] = _ ∧ _
      rw [List.append_nil]
      exact h.told
  | stage capacity =>
    refine ⟨⟨spans, ?_, hfed.stage capacity⟩, ?_⟩
    · rw [Activity.spans_concat, Activity.closedSpans_concat, hspans, List.append_assoc]
      exact congrArg _ (List.append_nil _)
    · rw [Activity.closedSpans_concat]
      show ∃ snapshots : List Snapshot, results ++ [] = _ ∧ _
      rw [List.append_nil]
      exact h.told
  | assemble context =>
    have hlen : spans.length < 2 ^ 63 := by
      rw [hspans, List.length_append] at hl
      omega
    obtain ⟨m, hm, homitted, hreads, htells⟩ := hfed.assemble z hlen context
    obtain ⟨snapshots, hresults, hall, hread, htold⟩ := h.told
    rw [value_act_assemble, hm]
    refine ⟨⟨[], ?_, hfed.drain⟩, snapshots ++ [m], ?_, ?_, ?_, ?_⟩
    · rw [Activity.spans_concat, Activity.closedSpans_concat]
      rfl
    · rw [hresults, List.map_append]
      rfl
    · exact List.forall_mem_append.2 ⟨hall, List.forall_mem_singleton.2 homitted⟩
    · intro hsizes
      obtain ⟨hsizes, hsize⟩ := List.forall_mem_append.1 hsizes
      obtain ⟨documents, hdocuments⟩ := hread hsizes
      obtain ⟨d, hd⟩ := hreads (hsize m List.mem_cons_self)
      exact ⟨documents ++ [d], Message.mapM_concat_eq_some.2 ⟨documents, d, hdocuments, hd, rfl⟩⟩
    · intro all hmapM
      obtain ⟨documents, d, hdocuments, hd, rfl⟩ := Message.mapM_concat_eq_some.1 hmapM
      rw [Activity.closedSpans_concat]
      show Message.Tells (documents ++ [d]) (Activity.spans activities)
      rw [hspans]
      exact (htold documents hdocuments).append (htells d hd)

theorem delivered_actAll (z : Zlib.Encoder) (requested capacity : Nat) (activities : List Activity)
    (h : (Activity.spans activities).length < 2 ^ 63) :
    ∃ p, Delivered p activities
      ((new requested capacity).value.actAll z.compress activities).value.1
      ((new requested capacity).value.actAll z.compress activities).value.2 := by
  rw [value_new]
  generalize Precision.ofRequest requested = p
  refine ⟨p, ?_⟩
  induction activities using List.reverseRecOn with
  | nil =>
    refine ⟨⟨[], rfl, fed_empty p capacity⟩, [], rfl, by simp, fun _ => ⟨[], rfl⟩, ?_⟩
    intro documents hd
    obtain rfl : [] = documents := Option.some.inj hd
    exact Message.tells_nil
  | append_singleton activities activity ih =>
    rw [Activity.spans_concat, List.length_append] at h
    have hlen : (Activity.spans activities).length < 2 ^ 63 := by omega
    rw [value_actAll_concat]
    exact (ih hlen).act activity hlen

/-- Every message is made, with all histograms in it, and can be read below the length
that its format announces. What a reader of all messages adds up is the number of
requests before the last message, of the failed ones among them, and of those whose
latency was not refused, whatever capacities were staged in between and whatever
compresses the histograms. A latency is refused exactly if it is logged. -/
theorem nothing_lost (z : Zlib.Encoder) (requested capacity : Nat) (activities : List Activity)
    (h : (Activity.spans activities).length < 2 ^ 63) :
    let results := ((new requested capacity).value.actAll z.compress activities).value.1
    let sent := Activity.closedSpans activities
    (∃ snapshots : List Snapshot, results = snapshots.map .ok ∧
      (∀ m ∈ snapshots, m.omitted = 0) ∧
      ((∀ m ∈ snapshots, m.message.length < 2 ^ 31) →
        ∃ documents, snapshots.mapM (Bson.read? ·.message) = some documents) ∧
      ∀ documents, snapshots.mapM (Bson.read? ·.message) = some documents →
        Message.countOf (· = ["TransactionName"]) documents = some (sent.length : Int) ∧
        Message.countOf ("Errors" ∈ ·) documents = some (sent.countP (·.failed) : Int) ∧
        Message.samplesOf documents =
          some (sent.countP (·.duration.micros < Histogram.ceiling))) ∧
    ∀ (t : HistogramTable) (name : String) (d : Duration),
      (t.record name d).events = [] ↔ d.micros < Histogram.ceiling := by
  intro results sent
  obtain ⟨p, hdelivered⟩ := delivered_actAll z requested capacity activities h
  obtain ⟨snapshots, hresults, homitted, hread, htold⟩ := hdelivered.told
  refine ⟨⟨snapshots, hresults, homitted, hread, fun documents hd => ?_⟩,
    HistogramTable.events_record_eq_nil_iff⟩
  have htells := htold documents hd
  exact ⟨htells.requests, htells.failures, htells.samples⟩

/-- Of three requests two come before the message. One of them failed and took too
long for the histogram, and the registry had no room for its name. -/
theorem nothing_lost_of_three :
    let activities : List Activity :=
      [.record ⟨"a", "", ⟨1500000⟩, 200, "GET", false⟩,
        .record ⟨"b", "", ⟨5000000000000000⟩, 500, "GET", true⟩,
        .assemble ⟨default, 30, .none, [], 0⟩, .stage 5,
        .record ⟨"b", "", ⟨1500000⟩, 200, "GET", false⟩]
    (Activity.spans activities).length < 2 ^ 63 ∧
      ∃ snapshots : List Snapshot,
        ((new 2 1).value.actAll Zlib.compress activities).value.1 = snapshots.map .ok ∧
        ∃ documents, snapshots.mapM (Bson.read? ·.message) = some documents ∧
          Message.countOf (· = ["TransactionName"]) documents = some 2 ∧
          Message.countOf ("Errors" ∈ ·) documents = some 1 ∧
          Message.samplesOf documents = some 1 := by
  intro activities
  have hl : (Activity.spans activities).length < 2 ^ 63 := by decide
  obtain ⟨⟨snapshots, hresults, -, hread, htold⟩, -⟩ := nothing_lost Zlib.encoder 2 1 activities hl
  have hsizes : ∀ m ∈ snapshots, m.message.length < 2 ^ 31 := by
    have he : (((new 2 1).value.actAll Zlib.encoder.compress activities).value.1.filterMap
        Except.toOption).all
        (·.message.length < 2 ^ 31) = true := by decide +kernel
    have hm : (snapshots.map Except.ok).filterMap
        (Except.toOption : Except SnapshotError Snapshot → Option Snapshot) = snapshots := by
      rw [List.filterMap_map]
      exact List.filterMap_some
    rw [hresults, hm, List.all_eq_true] at he
    exact fun m hmem => of_decide_eq_true (he m hmem)
  obtain ⟨documents, hd⟩ := hread hsizes
  exact ⟨hl, snapshots, hresults, documents, hd, htold documents hd⟩

end Aggregation
end SpanMetrics
