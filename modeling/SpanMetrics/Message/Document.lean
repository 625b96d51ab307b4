import SpanMetrics.Aggregation.Cycle
import SpanMetrics.Host.Identity
import SpanMetrics.Host.Load
import SpanMetrics.Message.Metric

/-!
# Layout of a message

The documents that a metrics message consists of, with their fields in the order that its reader
expects. An optional field is left out rather than empty, except for the hardware addresses, which
are always there.
-/
namespace SpanMetrics.Message

open Bson (Value Document)

/-- A field that is there if its value is. -/
def optional (key : String) (value : Option Value) : Document :=
  value.toList.map fun v => (key, v)

def identity (h : Host.Identity) : Document :=
  [("Hostname", .string h.hostname)] ++
    optional "ConfiguredHostname" (h.hostAlias.map .string) ++
    [("UnameSysName", .string h.systemName), ("UnameVersion", .string h.systemRelease),
      ("PID", .int32 h.pid), ("Distro", .string h.distro)] ++
    optional "IPAddresses"
      (if h.ipAddresses.isEmpty then none else some (.ofTexts h.ipAddresses)) ++
    [("MACAddresses", .ofTexts h.macAddresses)] ++
    optional "EC2InstanceID" (h.instanceId.map .string) ++
    optional "EC2AvailabilityZone" (h.availabilityZone.map .string) ++
    optional "DockerContainerID" (h.containerId.map .string)

def samplerMetrics (t : SamplerTotals) : List Value :=
  [("RequestCount", t.requested), ("TraceCount", t.traced),
    ("TokenBucketExhaustionCount", t.limited), ("SampleCount", t.sampled),
    ("ThroughTraceCount", t.through)].map fun (name, n) => MetricValue.document name (.int64 n)

def queueMetrics (q : QueueTotals) : List Value :=
  [("NumSent", q.sent), ("NumOverflowed", q.overflowed), ("NumFailed", q.failed),
    ("TotalEvents", q.events), ("QueueLargest", q.largest)].map
      fun (name, n) => MetricValue.document name (.int64 n)

/-- The readings of the host that there are. -/
def hostMetrics (r : Host.Readings) : List Value :=
  [("Load1", r.load1.map MetricValue.double), ("TotalRAM", r.totalRam.map .int64),
    ("FreeRAM", r.freeRam.map .int64), ("ProcessRAM", r.processRam.map .int32)].filterMap
      fun (name, value) => value.map (MetricValue.document name)

/-- Appends a field unless its key is there already. -/
def insertNew (d : Document) (tag : Tag) : Document :=
  if (Bson.field? d tag.name).isSome then d else d ++ [(tag.name, .string tag.value)]

/-- The tags as they go on the wire. Names that are equal after the cut share one field, which has
the value of the first of them. -/
def tagsDocument (tags : TagSet) : Document := tags.truncated.foldl insertNew []

def tagsField (tags : TagSet) : Document :=
  optional "tags" (if tags.isEmpty then none else some (.document (tagsDocument tags)))

/-- The document of a counter series; its sum is there only if it is to be reported. -/
def counterDocument (c : Counter) : Value :=
  .document ([("name", .string c.name), ("count", .ofInt c.kept.toInt)] ++
    optional "sum" (if c.reportSum then some (.double c.sum) else none) ++ tagsField c.tags)

/-- The document of a histogram whose wire form is known. -/
def histogramDocument (e : HistogramEntry) (wire : String) : Value :=
  .document ([("name", .string ResponseTime.seriesName), ("value", .string wire)] ++
    tagsField e.tags)

end SpanMetrics.Message
