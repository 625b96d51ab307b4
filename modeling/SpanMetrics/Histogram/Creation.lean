import SpanMetrics.Histogram.Table

/-!
# Buckets for given bounds

How a histogram comes by its buckets, and how a latency comes to one. Bounds and a precision may
have no layout; where they have one, it ends with the power of two beyond the upper bound. A
latency is counted if the layout has its slot, and is compared with no bound. `recordStepwise` goes
through a recording in order: look for the entry, make it if it is not there, look for it again,
count the latency.
-/
namespace SpanMetrics

namespace Histogram

/-- Why there is no layout for bounds and a precision. -/
inductive LayoutError where
  | lowIsZero
  | lowExceedsMax
  | highLessThanTwiceLow
  | figuresExceedMax
  /-- The values told apart one by one would not fit 64 bits. -/
  | figuresBeyondLow
deriving DecidableEq, Repr

def LayoutError.name : LayoutError → String
  | lowIsZero => "LowIsZero"
  | lowExceedsMax => "LowExceedsMax"
  | highLessThanTwiceLow => "HighLessThanTwiceLow"
  | figuresExceedMax => "SigFigExceedsMax"
  | figuresBeyondLow => "CannotRepresentSigFigBeyondLow"

/-- The precision for some bounds, if there is a layout with it. -/
def layout (low high figures : Nat) : Except LayoutError Precision :=
  if low < 1 then .error .lowIsZero
  else if Width.half64 ≤ low then .error .lowExceedsMax
  else if high < 2 * low then .error .highLessThanTwiceLow
  else match Precision.ofNat? figures with
    | none => .error .figuresExceedMax
    | some p =>
      if 63 < Nat.log2 low + halfBits p + 1 then .error .figuresBeyondLow else .ok p

/-- How often a value is doubled until it is beyond `high`. -/
def doublings (high : Nat) : (steps reach : Nat) → Nat
  | 0, _ => 0
  | steps + 1, reach => if reach ≤ high then doublings high steps (2 * reach) + 1 else 0

/-- The number of slots. The values told apart one by one have two parts of equal size, and every
power of two above them has one more. Values have 64 bits, so there are no more doublings. -/
def slots (low high : Nat) (p : Precision) : Nat :=
  (doublings high 64 (2 <<< (halfBits p + Nat.log2 low)) + 2) <<< halfBits p

/-- One more in a slot. -/
def increment (h : Histogram) (s : Nat) : Histogram :=
  ⟨h.precision, bump s h.counts, increasing_bump h.increasing, positive_bump h.positive⟩

/-- Counts one latency in its slot, if there is this slot. -/
def recordInSlot (h : Histogram) (micros : Nat) : Except HistogramError Histogram :=
  if slot h.precision micros < slots lowest highest h.precision then
    .ok (h.increment (slot h.precision micros))
  else .error (.record micros)

end Histogram

/-- The entry of a name that is new. -/
def HistogramEntry.create (name : String) (figures : Nat) :
    Except HistogramError HistogramEntry :=
  match Histogram.layout Histogram.lowest Histogram.highest figures with
  | .ok p => .ok ⟨name, .empty p⟩
  | .error cause => .error (.creation cause.name)

namespace HistogramTable

/-- Makes the entry of a name if it is not there. -/
def ensure (t : HistogramTable) (name : String) : Except HistogramError HistogramTable :=
  if (t.entries.get? name).isSome then .ok t
  else (HistogramEntry.create name t.precision.val).map (t.put name)

/-- Counts a latency in the entry of a name, if it is there. -/
def count (t : HistogramTable) (name : String) (micros : Nat) : Logged HistogramTable :=
  match t.entries.get? name with
  | none => return t
  | some e =>
    match e.histogram.recordInSlot micros with
    | .ok h => return t.put name { e with histogram := h }
    | .error refusal => do
      Logged.say .error ("Failed to record histogram: " ++ refusal.message)
      return t

def recordStepwise (t : HistogramTable) (name : String) (d : Duration) : Logged HistogramTable :=
  match t.ensure name with
  | .ok t => t.count name d.micros
  | .error refusal => do
    Logged.say .error ("Failed to create histogram: " ++ refusal.message)
    return t

end HistogramTable
end SpanMetrics
