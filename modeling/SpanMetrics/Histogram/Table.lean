import SpanMetrics.Counter
import SpanMetrics.Duration
import SpanMetrics.Histogram.Basic
import SpanMetrics.Log.Logged

/-!
# Histogram tables

One latency histogram for each name, made when the name is first used; the empty name is the
overall series. A latency beyond the last bucket is logged and counted nowhere, but the entry of
its name is there afterwards all the same.
-/
namespace SpanMetrics

structure HistogramEntry where
  name : String
  histogram : Histogram
deriving DecidableEq

/-- The overall series has no tags, every other one the tag of its transaction. -/
def HistogramEntry.tags (e : HistogramEntry) : TagSet :=
  if e.name = "" then .empty else ResponseTime.primary e.name

structure HistogramTable where
  precision : Precision
  entries : Table HistogramEntry

namespace HistogramTable

/-- An empty table. A precision that is out of range is logged and replaced by the standard one. -/
def new (requested : Nat) : Logged HistogramTable :=
  match Precision.ofNat? requested with
  | some p => return ⟨p, .empty⟩
  | none => do
    Logged.say .error ("histogram precision must be between 0 and 5: " ++ toString requested ++
      ", using " ++ toString Precision.standard.val)
    return ⟨.standard, .empty⟩

def size (t : HistogramTable) : Nat := t.entries.size

def isEmpty (t : HistogramTable) : Bool := t.entries.isEmpty

/-- The entry of a name, an empty one if the name was never used. -/
def entry (t : HistogramTable) (name : String) : HistogramEntry :=
  (t.entries.get? name).getD ⟨name, .empty t.precision⟩

def put (t : HistogramTable) (name : String) (e : HistogramEntry) : HistogramTable :=
  { t with entries := t.entries.alter name fun _ => e }

def record (t : HistogramTable) (name : String) (d : Duration) : Logged HistogramTable :=
  let e := t.entry name
  match e.histogram.record d.micros with
  | .ok h => return t.put name { e with histogram := h }
  | .error refusal => do
    Logged.say .error ("Failed to record histogram: " ++ refusal.message)
    return t.put name e

/-- The entries recorded so far, and the table without them. -/
def drain (t : HistogramTable) : List HistogramEntry × HistogramTable :=
  (t.entries.values, { t with entries := .empty })

end HistogramTable
end SpanMetrics
