import SpanMetrics.Bytes.Base64
import SpanMetrics.Histogram.Payload
import SpanMetrics.Width
import SpanMetrics.Zlib.Compress

/-!
# Wire form of a histogram

A histogram travels as the base64 text of a frame: a cookie, the length of what follows, and the
compressed binary form.
-/
namespace SpanMetrics.Histogram.Wire

/-- Marks a compressed histogram. -/
def cookie : Nat := 0x1C849314

def frame (compressed : Bytes) : Except HistogramError Bytes :=
  if compressed.length < Width.limit32 then
    .ok (Bytes.bigEndian 4 cookie ++ Bytes.bigEndian 4 compressed.length ++ compressed)
  else .error (.serialize
    ("compressed payload too large: " ++ toString compressed.length ++ " bytes"))

/-- The wire form, with any compression. -/
def encodeWith (compress : Bytes → Bytes) (h : Histogram) : Except HistogramError String := do
  let payload ← Payload.encode h
  let framed ← frame (compress payload)
  return .ofList (Bytes.Base64.encode framed)

def encode (h : Histogram) : Except HistogramError String := encodeWith Zlib.compress h

/-- The parts of a frame: its cookie, the length that it announces, and what follows. -/
structure Frame where
  cookie : Nat
  length : Nat
  stream : Bytes
deriving DecidableEq

def Frame.read? (text : String) : Option Frame := do
  let bytes ← Bytes.Base64.decode? text.toList
  let (mark, bytes) ← Bytes.readBig? 4 bytes
  let (length, stream) ← Bytes.readBig? 4 bytes
  return ⟨mark, length, stream⟩

/-- The binary form in a frame, if its length is right and the rest is one complete stream. -/
def Frame.payload? (f : Frame) : Option Bytes :=
  if f.length = f.stream.length then Zlib.inflate? f.stream else none

def decode? (text : String) : Option Histogram := do
  let f ← Frame.read? text
  if f.cookie = cookie then Payload.decode? (← f.payload?) else none

end SpanMetrics.Histogram.Wire
