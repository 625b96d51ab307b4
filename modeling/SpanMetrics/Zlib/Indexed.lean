import SpanMetrics.Zlib.Compress

/-!
# Settling with indices

`settle` step by step, as it is done on the finished stream and the length that the flushed one
had. A difference below zero and a place that is not there make no value, so there is a value only
if no step asks for one.
-/
namespace SpanMetrics.Zlib

/-- A difference of two sizes, the second of which is not the larger one. -/
def sub? (a b : Nat) : Option Nat := if b ≤ a then some (a - b) else none

/-- The bytes from one place to another. -/
def slice? (bytes : Bytes) (start stop : Nat) : Option Bytes :=
  if start ≤ stop ∧ stop ≤ bytes.length then some ((bytes.take stop).drop start) else none

/-- Sets a bit of a byte that is there. -/
def setBit? (place : Nat) (bytes : Bytes) : Option Bytes :=
  if place / 8 < bytes.length then some (setBit place bytes) else none

/-- Tries the places in order. -/
def tryPlaces? (synced : Nat) (finished trailer content : Bytes) : List Nat → Option Bytes
  | [] => some finished
  | place :: places => do
    let candidate ← slice? finished 0 synced
    let candidate ← setBit? place candidate
    let candidate := candidate ++ trailer
    if inflate? candidate = some content then return candidate
    else tryPlaces? synced finished trailer content places

/-- The stream of a content from the finished one, whose beginning of the length `synced` is the
flushed one. -/
def settle? (synced : Nat) (finished content : Bytes) : Option Bytes := do
  if synced < header.length + 2 + marker.length then return finished
  if finished.length < synced + 4 then return finished
  let start ← sub? synced marker.length
  if (← slice? finished start synced) ≠ marker then return finished
  let trailer ← slice? finished (← sub? finished.length 4) finished.length
  let markerBit := (← sub? synced marker.length) * 8
  let first ← sub? markerBit 10
  let last ← sub? markerBit 3
  tryPlaces? synced finished trailer content (List.range' first (last + 1 - first)).reverse

end SpanMetrics.Zlib
