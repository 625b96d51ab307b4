import SpanMetrics.Width

/-!
# Durations

A length of time in whole nanoseconds, with the coarser counts that are reported.
-/
namespace SpanMetrics

structure Duration where
  nanos : Nat
deriving DecidableEq, Repr, Inhabited

namespace Duration

def ofParts (secs nanos : Nat) : Duration := ⟨secs * 1000000000 + nanos⟩

def ofSecs (secs : Nat) : Duration := ofParts secs 0

def ofMillis (millis : Nat) : Duration := ⟨millis * 1000000⟩

def secs (d : Duration) : Nat := d.nanos / 1000000000

def subsecNanos (d : Duration) : Nat := d.nanos % 1000000000

/-- Whole microseconds, as many as fit an unsigned number of 64 bits. -/
def micros (d : Duration) : Nat := min (d.nanos / 1000) (Width.limit64 - 1)

/-- Whole seconds as announced on the wire, at most the largest signed number of 32 bits. -/
def wireSecs (d : Duration) : Int32 := .ofNat (min d.secs (Width.half32 - 1))

end Duration
end SpanMetrics
