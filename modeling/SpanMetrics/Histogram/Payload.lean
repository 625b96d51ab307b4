import SpanMetrics.Bytes.Varint
import SpanMetrics.Histogram.Basic
import SpanMetrics.Width

/-!
# Binary form of a histogram

A header with the layout, then the counts of the slots from the first to the last one in use as
variable-length integers: a count as itself, a run of empty slots as minus its length, and a single
empty slot as zero. A histogram without values has its first slot, which is empty.
-/
namespace SpanMetrics.Histogram.Payload

/-- Marks the version of the form. -/
def cookie : Nat := 0x1C849313

/-- The double 1.0, by which values would be multiplied. -/
def unitRatio : Nat := 0x3FF0000000000000

/-- A run of empty slots. -/
def gap : Nat → Bytes
  | 0 => []
  | 1 => Bytes.Varint.encode 0
  | length => Bytes.Varint.encode (-(length : Int))

/-- The counts of the slots from `next` to the last one in use. -/
def countsFrom (next : Nat) : List SlotCount → Bytes
  | [] => []
  | c :: rest =>
    gap (c.slot - next) ++ Bytes.Varint.encode (c.count : Int) ++ countsFrom (c.slot + 1) rest

def body (h : Histogram) : Bytes :=
  if h.counts.isEmpty then gap 1 else countsFrom 0 h.counts

def header (p : Precision) (length : Nat) : Bytes :=
  Bytes.bigEndian 4 cookie ++ Bytes.bigEndian 4 length ++ Bytes.bigEndian 4 0 ++
    Bytes.bigEndian 4 p.val ++ Bytes.bigEndian 8 lowest ++ Bytes.bigEndian 8 highest ++
    Bytes.bigEndian 8 unitRatio

def encode (h : Histogram) : Except HistogramError Bytes :=
  if h.counts.any (Width.half64 ≤ ·.count) then .error (.serialize "CountNotSerializable")
  else .ok (header h.precision (body h).length ++ body h)

/-- Slots and counts in a body whose first slot is `next`. Every number takes a byte, so as many
steps as there are bytes are enough. -/
def readCounts? : (steps next : Nat) → Bytes → Option (List SlotCount)
  | _, _, [] => some []
  | 0, _, _ => none
  | steps + 1, next, bytes => do
    let (n, rest) ← Bytes.Varint.decode? bytes
    if 0 < n then return ⟨next, n.toNat⟩ :: (← readCounts? steps (next + 1) rest)
    else if n = 0 then readCounts? steps (next + 1) rest
    else readCounts? steps (next + n.natAbs) rest

/-- A histogram from its counts, if they are in order. -/
def ofCounts? (p : Precision) (counts : List SlotCount) : Option Histogram :=
  if h : counts.Pairwise (·.slot < ·.slot) ∧ ∀ c ∈ counts, 0 < c.count then
    some ⟨p, counts, h.1, h.2⟩
  else none

def decode? (bytes : Bytes) : Option Histogram := do
  let (mark, bytes) ← Bytes.readBig? 4 bytes
  let (length, bytes) ← Bytes.readBig? 4 bytes
  let (offset, bytes) ← Bytes.readBig? 4 bytes
  let (figures, bytes) ← Bytes.readBig? 4 bytes
  let (low, bytes) ← Bytes.readBig? 8 bytes
  let (high, bytes) ← Bytes.readBig? 8 bytes
  let (ratio, bytes) ← Bytes.readBig? 8 bytes
  let p ← Precision.ofNat? figures
  if mark = cookie ∧ length = bytes.length ∧ offset = 0 ∧ low = lowest ∧ high = highest ∧
      ratio = unitRatio then
    ofCounts? p (← readCounts? bytes.length 0 bytes)
  else none

end SpanMetrics.Histogram.Payload
