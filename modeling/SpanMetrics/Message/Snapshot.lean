import SpanMetrics.Bson.Writer
import SpanMetrics.Histogram.Wire
import SpanMetrics.Message.Document

/-!
# Snapshots

A closed cycle becomes one message. A histogram that has no wire form is logged and left out, and
the others are not touched by that. A key that cannot be written fails the whole message; by then
the cycle has left the state, and it is lost.
-/
namespace SpanMetrics

open Bson (Value Document)

inductive EntryOutcome where
  | encoded (name : String)
  | omitted (name : String) (cause : HistogramError)
deriving DecidableEq, Repr

namespace EntryOutcome

def name : EntryOutcome → String
  | encoded name => name
  | omitted name _ => name

def isEncoded : EntryOutcome → Bool
  | encoded _ => true
  | omitted _ _ => false

end EntryOutcome

inductive SnapshotError where
  | encode (cause : Bson.WriteError)
deriving DecidableEq, Repr

def SnapshotError.message : SnapshotError → String
  | encode cause => "Failed to encode metrics message: " ++ cause.message

structure Snapshot where
  message : Bytes
  outcomes : List EntryOutcome
deriving DecidableEq

def Snapshot.omitted (s : Snapshot) : Nat := s.outcomes.countP (!·.isEncoded)

/-- What a message holds beside the cycle. -/
structure MessageContext where
  host : Host.Identity
  /-- Seconds between two messages. -/
  interval : Int32
  readings : Host.Readings
  runtime : List RuntimeMetric
  /-- Microseconds since the epoch. -/
  timestamp : Int64

namespace Message

/-- The document of a histogram, if an encoder has a wire form for it, and its outcome. -/
def encodeHistogram (encode : HistogramEntry → Except HistogramError String)
    (e : HistogramEntry) : Logged (Option Value × EntryOutcome) :=
  match encode e with
  | .ok wire => return (some (histogramDocument e wire), .encoded e.name)
  | .error cause => do
    Logged.say .error ("Failed to encode histogram '" ++ e.name ++ "': " ++ cause.message)
    return (none, .omitted e.name cause)

/-- The documents of the histograms that can be encoded, and the outcome of every one. -/
def encodeHistograms (encode : HistogramEntry → Except HistogramError String)
    (entries : List HistogramEntry) : Logged (List Value × List EntryOutcome) := do
  let results ← entries.mapM (encodeHistogram encode)
  return (results.filterMap (·.1), results.map (·.2))

/-- The measurements of a message: totals, readings, metrics of the program, counter series. -/
def measurements (c : Cycle) (context : MessageContext) : List Value :=
  samplerMetrics c.sampler ++ queueMetrics c.queue ++ hostMetrics context.readings ++
    context.runtime.map (fun m => m.value.document m.name) ++ c.counters.map counterDocument

def document (c : Cycle) (context : MessageContext) (histograms : List Value) : Document :=
  identity context.host ++
    [("Timestamp_u", .int64 context.timestamp), ("MetricsFlushInterval", .int32 context.interval),
      ("measurements", .ofItems (measurements c context)), ("histograms", .ofItems histograms)] ++
    optional "TransactionNameOverflow" (if c.overflow then some (.bool true) else none)

def assembledNotice (size counters histograms : Nat) : Log.Event :=
  .say .debug ("Assembled metrics message of " ++ toString size ++ " bytes with " ++
    toString counters ++ " measurements and " ++ toString histograms ++ " histograms")

end Message

/-- The snapshot of a cycle, with any compression of the histograms. -/
def Cycle.snapshotWith (compress : Bytes → Bytes) (c : Cycle) (context : MessageContext) :
    Logged (Except SnapshotError Snapshot) := do
  let (histograms, outcomes) ←
    Message.encodeHistograms (fun e => Histogram.Wire.encodeWith compress e.histogram) c.histograms
  match Bson.write (Message.document c context histograms) with
  | .error cause => return .error (.encode cause)
  | .ok bytes => do
    Logged.emit (Message.assembledNotice bytes.length c.counters.length c.histograms.length)
    return .ok ⟨bytes, outcomes⟩

def Cycle.snapshot (c : Cycle) (context : MessageContext) :
    Logged (Except SnapshotError Snapshot) := c.snapshotWith Zlib.compress context

namespace Aggregation

/-- Closes the cycle and makes its snapshot, with any compression of the histograms. -/
def assembleWith (compress : Bytes → Bytes) (s : Aggregation) (context : MessageContext) :
    Logged (Except SnapshotError Snapshot × Aggregation) := do
  let (cycle, s) ← s.drain
  return (← cycle.snapshotWith compress context, s)

def assemble (s : Aggregation) (context : MessageContext) :
    Logged (Except SnapshotError Snapshot × Aggregation) := s.assembleWith Zlib.compress context

end Aggregation
end SpanMetrics
