import SpanMetrics.Message.Reading
import SpanMetrics.Proofs.Histogram.Wire
import SpanMetrics.Proofs.Message.Snapshot

/-!
# Layout of a message

What a reader of a message finds in it, said through the keys in their order and
the value of each of them: the identity of the host, the metrics, one document for
each counter and one for each histogram that has a wire form. The fields are put
together from optional parts, and a part that repeated a key of another one would
hide it; the order of all keys is fixed, so none repeats.
-/
namespace SpanMetrics.Message

open Bson (Value Document)

/-- A key that is there on a condition. -/
def onlyIf (condition : Bool) (key : String) : List String := if condition then [key] else []

/-- What a field says of a tag set: nothing if the set is empty, else the names cut to
64 characters, each where it comes first, with the value of the first tag of that name,
cut to 255 characters. -/
def TellsTags (tags : TagSet) (value : Option Value) : Prop :=
  if tags.toList.isEmpty then value = none
  else ∃ d, value = some (.document d) ∧
    Bson.keys d = (tags.toList.map fun tag => String.ofList (tag.name.toList.take 64)).eraseDups ∧
    ∀ name, Bson.field? d name =
      (tags.toList.find? fun tag => String.ofList (tag.name.toList.take 64) = name).map
        fun tag => .string (.ofList (tag.value.toList.take 255))

structure TellsCounter (c : Counter) (d : Document) : Prop where
  keys : Bson.keys d =
    ["name", "count"] ++ onlyIf c.reportSum "sum" ++ onlyIf (!c.tags.toList.isEmpty) "tags"
  name : Bson.field? d "name" = some (.string c.name)
  /-- A count within 64 bits is told as it is. -/
  count : count? d = some (Int64.ofInt c.count).toInt
  sum : Bson.field? d "sum" = if c.reportSum then some (.double c.sum) else none
  tags : TellsTags c.tags (Bson.field? d "tags")

/-- The overall histogram has no tags, any other one has the name of its transaction, cut
to 255 characters. A histogram whose counts fit 63 bits is read back whole. -/
structure TellsHistogram (z : Zlib.Encoder) (e : HistogramEntry) (d : Document) : Prop where
  keys : Bson.keys d = ["name", "value"] ++ onlyIf (e.name ≠ "") "tags"
  name : Bson.field? d "name" = some (.string "TransactionResponseTime")
  value : ∃ wire, e.wire z.compress = .ok wire ∧ Bson.field? d "value" = some (.string wire)
  histogram : e.histogram.Sized → histogram? d = some e.histogram
  tags : Bson.field? d "tags" = if e.name = "" then none else
    some (.document [("TransactionName", .string (.ofList (e.name.toList.take 255)))])

/-- The readings that there are, in order. -/
def presentReadings (r : Host.Readings) : List (String × Value) :=
  List.reduceOption
    [r.load1.map fun x => ("Load1", .double x), r.totalRam.map fun n => ("TotalRAM", .int64 n),
      r.freeRam.map fun n => ("FreeRAM", .int64 n),
      r.processRam.map fun n => ("ProcessRAM", .int32 n)]

/-- The metrics of a message and their values, in order. -/
def metrics (c : Cycle) (context : MessageContext) : List (String × Value) :=
  [("RequestCount", .int64 c.sampler.requested), ("TraceCount", .int64 c.sampler.traced),
    ("TokenBucketExhaustionCount", .int64 c.sampler.limited),
    ("SampleCount", .int64 c.sampler.sampled), ("ThroughTraceCount", .int64 c.sampler.through),
    ("NumSent", .int64 c.queue.sent), ("NumOverflowed", .int64 c.queue.overflowed),
    ("NumFailed", .int64 c.queue.failed), ("TotalEvents", .int64 c.queue.events),
    ("QueueLargest", .int64 c.queue.largest)] ++ presentReadings context.readings ++
  context.runtime.map fun m => (m.name, match m.value with
    | .int32 n => .int32 n
    | .int64 n => .int64 n
    | .double x => .double x)

/-- The fields of a metric. -/
def metricFields (m : String × Value) : Document := [("name", .string m.1), ("value", m.2)]

/-- The document that a reader finds, field by field. -/
structure Layout (z : Zlib.Encoder) (c : Cycle) (context : MessageContext) (d : Document) :
    Prop where
  keys : Bson.keys d =
    ["Hostname"] ++ onlyIf context.host.hostAlias.isSome "ConfiguredHostname" ++
    ["UnameSysName", "UnameVersion", "PID", "Distro"] ++
    onlyIf (!context.host.ipAddresses.isEmpty) "IPAddresses" ++ ["MACAddresses"] ++
    onlyIf context.host.instanceId.isSome "EC2InstanceID" ++
    onlyIf context.host.availabilityZone.isSome "EC2AvailabilityZone" ++
    onlyIf context.host.containerId.isSome "DockerContainerID" ++
    ["Timestamp_u", "MetricsFlushInterval", "measurements", "histograms"] ++
    onlyIf c.overflow "TransactionNameOverflow"
  hostname : Bson.field? d "Hostname" = some (.string context.host.hostname)
  hostAlias : Bson.field? d "ConfiguredHostname" = context.host.hostAlias.map .string
  systemName : Bson.field? d "UnameSysName" = some (.string context.host.systemName)
  systemRelease : Bson.field? d "UnameVersion" = some (.string context.host.systemRelease)
  pid : Bson.field? d "PID" = some (.int32 context.host.pid)
  distro : Bson.field? d "Distro" = some (.string context.host.distro)
  ipAddresses : Bson.field? d "IPAddresses" = if context.host.ipAddresses.isEmpty then none else
    some (Bson.arrayOf (context.host.ipAddresses.map .string))
  macAddresses : Bson.field? d "MACAddresses" =
    some (Bson.arrayOf (context.host.macAddresses.map .string))
  instanceId : Bson.field? d "EC2InstanceID" = context.host.instanceId.map .string
  availabilityZone :
    Bson.field? d "EC2AvailabilityZone" = context.host.availabilityZone.map .string
  containerId : Bson.field? d "DockerContainerID" = context.host.containerId.map .string
  timestamp : Bson.field? d "Timestamp_u" = some (.int64 context.timestamp)
  interval : Bson.field? d "MetricsFlushInterval" = some (.int32 context.interval)
  measurements : ∃ counters : List Document,
    Bson.field? d "measurements" =
      some (Bson.arrayOf (((metrics c context).map metricFields ++ counters).map .document)) ∧
    List.Forall₂ TellsCounter c.counters counters
  histograms : ∃ entries : List Document,
    Bson.field? d "histograms" = some (Bson.arrayOf (entries.map .document)) ∧
    List.Forall₂ (TellsHistogram z) (c.histograms.filter fun e => (e.wire z.compress).isOk) entries
  /-- No histogram is left out whose counts fit 63 bits. -/
  encoded : ∀ e ∈ c.histograms, e.histogram.Sized → (e.wire z.compress).isOk
  overflow : Bson.field? d "TransactionNameOverflow" =
    if c.overflow then some (.bool true) else none

/-! ## Keys in a fixed order -/

theorem onlyIf_sublist (condition : Bool) (key : String) : (onlyIf condition key).Sublist [key] := by
  cases condition
  · exact List.nil_sublist _
  · exact List.Sublist.refl _

theorem keys_optional_eq (key : String) (value : Option Value) :
    Bson.keys (optional key value) = onlyIf value.isSome key := keys_optional key value

theorem keys_tagsField (tags : TagSet) :
    Bson.keys (tagsField tags) = onlyIf (!tags.isEmpty) "tags" := by
  rw [tagsField, keys_optional_eq]
  cases tags.isEmpty <;> rfl

theorem field?_tagsField (tags : TagSet) (key : String) :
    Bson.field? (tagsField tags) key =
      if key = "tags" then if tags.isEmpty then none else some (.document (tagsDocument tags))
      else none := field?_optional "tags" key _

theorem tellsTags (tags : TagSet) :
    TellsTags tags (if tags.isEmpty then none else some (.document (tagsDocument tags))) := by
  unfold TellsTags TagSet.isEmpty
  split
  · rfl
  · refine ⟨_, rfl, ?_, fun name => ?_⟩
    · rw [keys_tagsDocument, TagSet.truncated, List.map_map]
      rfl
    · rw [field?_tagsDocument, TagSet.truncated, List.find?_map, Option.map_map]
      rfl

/-! ## Counters -/

/-- The fields of a counter. -/
def counterFields (c : Counter) : Document :=
  [("name", .string c.name), ("count", .ofInt c.kept.toInt)] ++
    optional "sum" (if c.reportSum then some (.double c.sum) else none) ++ tagsField c.tags

theorem keys_counterFields (c : Counter) :
    Bson.keys (counterFields c) =
      ["name", "count"] ++ onlyIf c.reportSum "sum" ++ onlyIf (!c.tags.isEmpty) "tags" := by
  unfold counterFields
  rw [Bson.keys_append, Bson.keys_append, keys_optional_eq, keys_tagsField]
  cases c.reportSum <;> rfl

/-- Both widths tell a number of 64 bits. -/
theorem int?_ofInt (n : Int64) : (Value.ofInt n.toInt).int? = some n.toInt := by
  unfold Value.ofInt
  split
  · next h =>
    obtain ⟨hl, hu⟩ := Bool.and_eq_true_iff.1 h
    exact congrArg some (Int32.toInt_ofInt_of_le (of_decide_eq_true hl) (of_decide_eq_true hu))
  · exact congrArg (some <| Int64.toInt ·) n.ofInt_toInt

theorem tellsCounter (c : Counter) : TellsCounter c (counterFields c) := by
  constructor
  · exact keys_counterFields c
  · rfl
  · exact int?_ofInt c.kept
  · simp [counterFields, Bson.field?_append, Bson.field?_cons, field?_tagsField]
  · have ht : Bson.field? (counterFields c) "tags" =
        if c.tags.isEmpty then none else some (.document (tagsDocument c.tags)) := by
      simp [counterFields, Bson.field?_append, Bson.field?_cons, field?_tagsField]
    rw [ht]
    exact tellsTags c.tags

/-! ## Histograms -/

/-- The fields of a histogram with its wire form. -/
def histogramFields (e : HistogramEntry) (wire : String) : Document :=
  [("name", .string ResponseTime.seriesName), ("value", .string wire)] ++ tagsField e.tags

theorem isEmpty_tags (e : HistogramEntry) : e.tags.isEmpty = decide (e.name = "") := by
  unfold HistogramEntry.tags
  split
  · next h => rw [decide_eq_true h]; rfl
  · next h => rw [decide_eq_false h]; rfl

theorem keys_histogramFields (e : HistogramEntry) (wire : String) :
    Bson.keys (histogramFields e wire) = ["name", "value"] ++ onlyIf (e.name ≠ "") "tags" := by
  unfold histogramFields
  rw [Bson.keys_append, keys_tagsField, isEmpty_tags, decide_not]
  rfl

/-- The name of the tag is shorter than the cut. -/
theorem tagsDocument_primary (name : String) :
    tagsDocument (ResponseTime.primary name) =
      [("TransactionName", .string (.ofList (name.toList.take 255)))] := by
  have hn : Text.cut Tag.nameLimit "TransactionName" = "TransactionName" := by decide
  show [(Text.cut Tag.nameLimit "TransactionName", Value.string (Text.cut Tag.valueLimit name))] = _
  rw [hn]
  rfl

theorem isOk_wire (z : Zlib.Encoder) {e : HistogramEntry} (hs : e.histogram.Sized) :
    (e.wire z.compress).isOk := by
  rw [HistogramEntry.wire, Histogram.Wire.encodeWith_eq z hs]
  rfl

theorem tellsHistogram {z : Zlib.Encoder} {e : HistogramEntry} {wire : String}
    (h : e.wire z.compress = .ok wire) : TellsHistogram z e (histogramFields e wire) := by
  constructor
  · exact keys_histogramFields e wire
  · rfl
  · exact ⟨wire, h, rfl⟩
  · intro hs
    obtain rfl := Except.ok.inj (h.symm.trans (Histogram.Wire.encodeWith_eq z hs))
    exact Histogram.Wire.decode?_encode z hs
  · have ht : Bson.field? (histogramFields e wire) "tags" =
        if e.tags.isEmpty then none else some (.document (tagsDocument e.tags)) := by
      simp [histogramFields, Bson.field?_cons, field?_tagsField]
    rw [ht, isEmpty_tags]
    by_cases hn : e.name = ""
    · rw [decide_eq_true hn, if_pos rfl, if_pos hn]
    · rw [decide_eq_false hn, if_neg Bool.false_ne_true, if_neg hn, HistogramEntry.tags, if_neg hn,
        tagsDocument_primary]

/-- The documents of the entries that have a wire form. -/
theorem histogramDocuments_eq (z : Zlib.Encoder) (entries : List HistogramEntry) :
    ∃ documents : List Document,
      entries.filterMap (histogramDocument? (·.wire z.compress)) = documents.map .document ∧
      List.Forall₂ (TellsHistogram z) (entries.filter fun e => (e.wire z.compress).isOk)
        documents := by
  refine ⟨entries.filterMap fun e => (e.wire z.compress).toOption.map (histogramFields e), ?_,
    forall₂_filter_filterMap (fun e => ?_) (fun e d hd => ?_) entries⟩
  · rw [List.map_filterMap]
    simp only [Option.map_map]
    rfl
  · cases e.wire z.compress <;> rfl
  · cases hw : e.wire z.compress with
    | error cause => rw [hw] at hd; cases hd
    | ok wire =>
      rw [hw] at hd
      obtain rfl := Option.some.inj hd
      exact tellsHistogram hw

/-! ## The message -/

/-- A value of the three number types is written by its own constructor. -/
theorem document_eq_metricFields (name : String) (value : MetricValue) :
    value.document name = .document (metricFields (name, match value with
      | .int32 n => .int32 n
      | .int64 n => .int64 n
      | .double x => .double x)) := by
  cases value <;> rfl

theorem measurements_eq (c : Cycle) (context : MessageContext) :
    measurements c context =
      ((metrics c context).map metricFields ++ c.counters.map counterFields).map .document := by
  obtain ⟨host, interval, ⟨load1, totalRam, freeRam, processRam⟩, runtime, timestamp⟩ := context
  have hruntime : (runtime.map fun m => m.value.document m.name) =
      ((runtime.map fun m => (m.name, match m.value with
        | .int32 n => .int32 n
        | .int64 n => .int64 n
        | .double x => Value.double x)).map metricFields).map .document := by
    rw [List.map_map, List.map_map]
    exact List.map_congr_left fun m _ => document_eq_metricFields m.name m.value
  have hcounters : c.counters.map counterDocument =
      (c.counters.map counterFields).map .document := by
    rw [List.map_map]
    rfl
  unfold measurements metrics
  rw [hruntime, hcounters, List.map_append, List.map_append, List.map_append]
  refine congrArg (· ++ _ ++ _) ?_
  cases load1 <;> cases totalRam <;> cases freeRam <;> cases processRam <;> rfl

theorem forall₂_tellsCounter (counters : List Counter) :
    List.Forall₂ TellsCounter counters (counters.map counterFields) := by
  rw [List.forall₂_map_right_iff]
  exact List.forall₂_same.2 fun c _ => tellsCounter c

theorem keys_identity (h : Host.Identity) :
    Bson.keys (identity h) =
      ["Hostname"] ++ onlyIf h.hostAlias.isSome "ConfiguredHostname" ++
      ["UnameSysName", "UnameVersion", "PID", "Distro"] ++
      onlyIf (!h.ipAddresses.isEmpty) "IPAddresses" ++ ["MACAddresses"] ++
      onlyIf h.instanceId.isSome "EC2InstanceID" ++
      onlyIf h.availabilityZone.isSome "EC2AvailabilityZone" ++
      onlyIf h.containerId.isSome "DockerContainerID" := by
  have hi : (if h.ipAddresses.isEmpty then none else some (Value.ofTexts h.ipAddresses)).isSome =
      !h.ipAddresses.isEmpty := by
    cases h.ipAddresses.isEmpty <;> rfl
  unfold identity
  simp only [Bson.keys_append, keys_optional_eq, Bson.keys_cons, Bson.keys_nil, Option.isSome_map, hi]

theorem keys_document (c : Cycle) (context : MessageContext) (histograms : List Value) :
    Bson.keys (document c context histograms) = Bson.keys (identity context.host) ++
      ["Timestamp_u", "MetricsFlushInterval", "measurements", "histograms"] ++
      onlyIf c.overflow "TransactionNameOverflow" := by
  unfold document
  rw [Bson.keys_append, Bson.keys_append, keys_optional_eq]
  cases c.overflow <;> rfl

theorem layout_document (z : Zlib.Encoder) (c : Cycle) (context : MessageContext) :
    Layout z c context (c.document z.compress context) := by
  obtain ⟨entries, he, ht⟩ := histogramDocuments_eq z c.histograms
  constructor
  case keys => rw [Cycle.document, keys_document, keys_identity]
  case measurements =>
    refine ⟨c.counters.map counterFields, ?_, forall₂_tellsCounter c.counters⟩
    rw [← measurements_eq, ← Value.ofItems_eq]
    simp [Cycle.document, document, identity, Bson.field?_append, Bson.field?_cons]
  case histograms =>
    refine ⟨entries, ?_, ht⟩
    rw [← he, ← Value.ofItems_eq]
    simp [Cycle.document, document, identity, Bson.field?_append, Bson.field?_cons]
  case encoded => exact fun e _ hs => isOk_wire z hs
  all_goals simp [Cycle.document, document, identity, Bson.field?_append, Bson.field?_cons,
    Value.ofTexts, Value.ofItems_eq]

/-- All keys that a message may have, in their order. -/
theorem nodup_keys_document (c : Cycle) (context : MessageContext) (histograms : List Value) :
    (Bson.keys (document c context histograms)).Nodup := by
  have hall : (["Hostname"] ++ ["ConfiguredHostname"] ++
      ["UnameSysName", "UnameVersion", "PID", "Distro"] ++ ["IPAddresses"] ++ ["MACAddresses"] ++
      ["EC2InstanceID"] ++ ["EC2AvailabilityZone"] ++ ["DockerContainerID"] ++
      ["Timestamp_u", "MetricsFlushInterval", "measurements", "histograms"] ++
      ["TransactionNameOverflow"]).Nodup := by decide
  refine hall.sublist ?_
  rw [keys_document, keys_identity]
  exact .append (.append (.append (.append (.append (.append (.append (.append (.append
    (.refl _) (onlyIf_sublist _ _)) (.refl _)) (onlyIf_sublist _ _)) (.refl _))
    (onlyIf_sublist _ _)) (onlyIf_sublist _ _)) (onlyIf_sublist _ _)) (.refl _))
    (onlyIf_sublist _ _)

/-! ## Keys that do not repeat -/

theorem forall_mem_optional {key : String} {value : Option Value} {p : Value → Prop} :
    (∀ field ∈ optional key value, p field.2) ↔ ∀ v ∈ value, p v := by
  cases value <;> simp [optional]

theorem unrepeated_tagsField (tags : TagSet) :
    ∀ field ∈ tagsField tags, field.2.Unrepeated := by
  refine forall_mem_optional.2 fun v hv => ?_
  split at hv
  · cases hv
  · obtain rfl := Option.some.inj hv
    exact unrepeated_tagsDocument tags

theorem unrepeated_ofInt (n : Int) : (Value.ofInt n).Unrepeated := by
  unfold Value.ofInt
  split
  · exact .int32 _
  · exact .int64 _

theorem unrepeated_counterFields (c : Counter) : (Value.document (counterFields c)).Unrepeated := by
  refine .document ?_ fun field hf => ?_
  · have hall : (["name", "count"] ++ ["sum"] ++ ["tags"]).Nodup := by decide
    refine hall.sublist ?_
    rw [keys_counterFields]
    exact .append (.append (.refl _) (onlyIf_sublist _ _)) (onlyIf_sublist _ _)
  · rcases List.mem_append.1 hf with hf | hf
    · rcases List.mem_append.1 hf with hf | hf
      · rcases List.mem_pair.1 hf with rfl | rfl
        · exact .string _
        · exact unrepeated_ofInt _
      · refine forall_mem_optional.2 (fun v hv => ?_) field hf
        split at hv
        · obtain rfl := Option.some.inj hv
          exact .double _
        · cases hv
    · exact unrepeated_tagsField c.tags field hf

theorem unrepeated_histogramFields (e : HistogramEntry) (wire : String) :
    (Value.document (histogramFields e wire)).Unrepeated := by
  refine .document ?_ fun field hf => ?_
  · have hall : (["name", "value"] ++ ["tags"]).Nodup := by decide
    refine hall.sublist ?_
    rw [keys_histogramFields]
    exact .append (.refl _) (onlyIf_sublist _ _)
  · rcases List.mem_append.1 hf with hf | hf
    · rcases List.mem_pair.1 hf with rfl | rfl
      · exact .string _
      · exact .string _
    · exact unrepeated_tagsField e.tags field hf

theorem unrepeated_metric (name : String) (value : MetricValue) :
    (value.document name).Unrepeated := by
  refine .document (by decide : (["name", "value"]).Nodup) fun field hf => ?_
  rcases List.mem_pair.1 hf with rfl | rfl
  · exact .string _
  · cases value
    · exact .int32 _
    · exact .int64 _
    · exact .double _

theorem unrepeated_measurements (c : Cycle) (context : MessageContext) :
    (Value.ofItems (measurements c context)).Unrepeated := by
  refine .ofItems ?_
  have hcounter : ∀ counter ∈ c.counters, (counterDocument counter).Unrepeated :=
    fun counter _ => unrepeated_counterFields counter
  unfold measurements samplerMetrics queueMetrics hostMetrics
  simp only [List.forall_mem_append, List.forall_mem_map, unrepeated_metric, implies_true, true_and,
    and_true]
  refine ⟨fun item hi => ?_, hcounter⟩
  obtain ⟨⟨name, value⟩, -, hv⟩ := List.mem_filterMap.1 hi
  obtain ⟨value, -, rfl⟩ := Option.map_eq_some_iff.1 hv
  exact unrepeated_metric name value

theorem unrepeated_histograms (compress : Bytes → Bytes) (entries : List HistogramEntry) :
    (Value.ofItems
      (entries.filterMap (histogramDocument? (·.wire compress)))).Unrepeated := by
  refine .ofItems fun item hi => ?_
  obtain ⟨e, -, he⟩ := List.mem_filterMap.1 hi
  obtain ⟨wire, -, rfl⟩ := Option.map_eq_some_iff.1 he
  exact unrepeated_histogramFields e wire

theorem unrepeated_identity (h : Host.Identity) :
    ∀ field ∈ identity h, field.2.Unrepeated := by
  unfold identity
  simp only [List.forall_mem_append, List.forall_mem_cons, forall_mem_optional]
  simp [Value.Unrepeated.string, Value.Unrepeated.int32, Value.Unrepeated.ofTexts]

/-- No document in a message has a key twice. -/
theorem unrepeated_document (compress : Bytes → Bytes) (c : Cycle) (context : MessageContext) :
    (Value.document (c.document compress context)).Unrepeated := by
  refine .document (nodup_keys_document c context _) fun field hf => ?_
  rcases List.mem_append.1 hf with hf | hf
  · rcases List.mem_append.1 hf with hf | hf
    · exact unrepeated_identity _ field hf
    · simp only [List.mem_cons, List.not_mem_nil, or_false] at hf
      rcases hf with rfl | rfl | rfl | rfl
      · exact .int64 _
      · exact .int32 _
      · exact unrepeated_measurements c context
      · exact unrepeated_histograms compress _
  · refine forall_mem_optional.2 (fun v hv => ?_) field hf
    split at hv
    · obtain rfl := Option.some.inj hv
      exact .bool true
    · cases hv

/-! ## What a reader finds in an array -/

theorem listed_of_field? {d : Document} {key : String} {documents : List Document}
    (h : Bson.field? d key = some (Bson.arrayOf (documents.map .document))) :
    listed d key = documents := by
  unfold listed
  rw [h, ← Value.ofItems_eq, Option.elim_some]
  show (Bson.keyed 0 (documents.map .document)).map (fun field => field.2.inner) = documents
  have hm := congrArg (List.map Value.inner) (Bson.values_keyed 0 (documents.map .document))
  rw [List.map_map, List.map_map] at hm
  exact hm.trans (List.map_id _)

variable {z : Zlib.Encoder} {c : Cycle} {context : MessageContext} {d : Document}

/-- A reader finds the metrics and then the counters. -/
theorem Layout.listed_measurements (h : Layout z c context d) :
    ∃ counters, listed d "measurements" = (metrics c context).map metricFields ++ counters ∧
      List.Forall₂ TellsCounter c.counters counters := by
  obtain ⟨counters, hm, hc⟩ := h.measurements
  exact ⟨counters, listed_of_field? hm, hc⟩

theorem Layout.listed_histograms (h : Layout z c context d) :
    List.Forall₂ (TellsHistogram z) (c.histograms.filter fun e => (e.wire z.compress).isOk)
      (listed d "histograms") := by
  obtain ⟨entries, hf, ht⟩ := h.histograms
  rwa [listed_of_field? hf]

/-- A message below the length is one document for its reader, no document in it has
a key twice, and it has the fields of the layout in their order with the values of
the cycle and the context, whatever compresses the histograms. -/
theorem layout (z : Zlib.Encoder) {c : Cycle} {context : MessageContext} {s : Snapshot}
    (h : (c.snapshotWith z.compress context).value = .ok s) (hl : s.message.length < 2 ^ 31) :
    ∃ d, Bson.read? s.message = some d ∧ (Value.document d).Unrepeated ∧ Layout z c context d :=
  ⟨c.document z.compress context, Cycle.read?_of_snapshot h (by omega),
    unrepeated_document z.compress c context, layout_document z c context⟩

/-- A cycle that overflowed, with one counter whose count needs the wider type and one
latency of a transaction, on a host without an alias or an instance. -/
theorem layout_of_overflow :
    let c : Cycle := ⟨[⟨"m", .ofList [⟨"b", "2"⟩, ⟨"a", "1"⟩], 3000000000, .zero, true⟩],
      [⟨"/home", .gather 2 [⟨1500000⟩]⟩], ⟨1, 2, 3, 4, 5⟩, ⟨6, 7, 8, 9, 10⟩, true⟩
    let context : MessageContext := ⟨⟨"h", none, "Linux", "6.1", 7, "", ["10.0.0.1"], [], none, none,
      none⟩, 30, .none, [⟨"heap", .int32 11⟩], 1700000000000000⟩
    ∃ s, (c.snapshot context).value = .ok s ∧ s.message.length < 2 ^ 31 ∧
      ∃ d, Bson.read? s.message = some d ∧ (Value.document d).Unrepeated ∧
        Layout Zlib.encoder c context d ∧
        Bson.keys d = ["Hostname", "UnameSysName", "UnameVersion", "PID", "Distro", "IPAddresses",
          "MACAddresses", "Timestamp_u", "MetricsFlushInterval", "measurements", "histograms",
          "TransactionNameOverflow"] ∧
        Bson.field? d "IPAddresses" = some (.array [("0", .string "10.0.0.1")]) ∧
        Bson.field? d "MACAddresses" = some (.array []) ∧
        (∃ counter, listed d "measurements" =
          [[("name", .string "RequestCount"), ("value", .int64 6)],
            [("name", .string "TraceCount"), ("value", .int64 9)],
            [("name", .string "TokenBucketExhaustionCount"), ("value", .int64 8)],
            [("name", .string "SampleCount"), ("value", .int64 7)],
            [("name", .string "ThroughTraceCount"), ("value", .int64 10)],
            [("name", .string "NumSent"), ("value", .int64 1)],
            [("name", .string "NumOverflowed"), ("value", .int64 2)],
            [("name", .string "NumFailed"), ("value", .int64 3)],
            [("name", .string "TotalEvents"), ("value", .int64 4)],
            [("name", .string "QueueLargest"), ("value", .int64 5)],
            [("name", .string "heap"), ("value", .int32 11)], counter] ∧
          Bson.keys counter = ["name", "count", "sum", "tags"] ∧ count? counter = some 3000000000) ∧
        ∃ entry, listed d "histograms" = [entry] ∧
          histogram? entry = some (.gather 2 [⟨1500000⟩]) ∧
          Bson.field? entry "tags" = some (.document [("TransactionName", .string "/home")]) := by
  intro c context
  have hb : c.badName? = none := by decide +kernel
  have hs : (c.snapshotWith Zlib.encoder.compress context).value =
      .ok ⟨Bson.enclose (Bson.fieldsBytes (c.document Zlib.encoder.compress context)),
        [outcome (·.wire Zlib.encoder.compress) ⟨"/home", .gather 2 [⟨1500000⟩]⟩]⟩ := by
    rw [Cycle.value_snapshot, hb]
    rfl
  have hl : (Bson.enclose (Bson.fieldsBytes
      (c.document Zlib.encoder.compress context))).length < 2 ^ 31 := by
    decide +kernel
  have hsized : (Histogram.gather 2 [⟨1500000⟩]).Sized := Histogram.gather_sized 2 (by decide)
  obtain ⟨d, hd, hu, hlayout⟩ := layout Zlib.encoder hs hl
  refine ⟨_, hs, hl, d, hd, hu, hlayout, hlayout.keys, hlayout.ipAddresses, hlayout.macAddresses,
    ?_, ?_⟩
  · obtain ⟨counters, hm, hc⟩ := hlayout.listed_measurements
    obtain ⟨counter, rest, ht, hrest, rfl⟩ := List.forall₂_cons_left_iff.1 hc
    obtain rfl := List.forall₂_nil_left_iff.1 hrest
    exact ⟨counter, hm, ht.keys, ht.count⟩
  · have hh := hlayout.listed_histograms
    rw [List.filter_eq_self.2 fun e he => ?_] at hh
    · obtain ⟨entry, rest, ht, hrest, he⟩ := List.forall₂_cons_left_iff.1 hh
      rw [List.forall₂_nil_left_iff.1 hrest] at he
      exact ⟨entry, he, ht.histogram hsized, ht.tags⟩
    · rw [List.mem_singleton.1 he]
      exact isOk_wire Zlib.encoder hsized

end SpanMetrics.Message
