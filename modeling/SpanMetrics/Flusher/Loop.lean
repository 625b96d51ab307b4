import SpanMetrics.Duration

/-!
# Flush loops

When a loop flushes: whenever the interval has passed since it began, counted from the start and
not from the last flush, so being late does not add up. The clock counts milliseconds; what falls
due inside of one is noticed at its end.
-/
namespace SpanMetrics

/-- A loop by the number under which it was asked for. -/
structure FlushLoop where
  number : Nat
  /-- The millisecond in which it began; none before that. -/
  start : Option Nat
  flushes : Nat
deriving DecidableEq, Repr

namespace FlushLoop

/-- Nanoseconds in a tick of the clock. -/
def tick : Nat := 1000000

/-- The longest time that the clock can be set to wait: thirty years, in milliseconds. -/
def longestWait : Nat := 30 * 365 * 24 * 60 * 60 * 1000

def period (interval : Duration) : Duration := ⟨min interval.nanos (longestWait * tick)⟩

def new (number : Nat) : FlushLoop := ⟨number, none, 0⟩

def begun (l : FlushLoop) (now : Nat) : FlushLoop := { l with start := some (l.start.getD now) }

/-- How many flushes are noticed until now and are still to be done. -/
def due (l : FlushLoop) (period : Duration) (now : Nat) : Nat :=
  match l.start with
  | some start => (now - start) * tick / period.nanos - l.flushes
  | none => 0

/-- The millisecond in which the next flush is noticed. -/
def wake (l : FlushLoop) (period : Duration) : Nat :=
  l.start.getD 0 + ((l.flushes + 1) * period.nanos + (tick - 1)) / tick

example : due ⟨0, some 5, 1⟩ (.ofMillis 10) 24 = 0 ∧ due ⟨0, some 5, 1⟩ (.ofMillis 10) 25 = 1 := by
  decide +kernel
example : wake ⟨0, some 5, 1⟩ ⟨700000⟩ = 7 ∧ due ⟨0, some 5, 1⟩ ⟨700000⟩ 7 = 1 := by decide +kernel

end FlushLoop
end SpanMetrics
