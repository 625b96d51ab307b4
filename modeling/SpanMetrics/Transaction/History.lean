import SpanMetrics.Transaction.Registry

/-!
# Histories of a registry

What can be asked of a registry, as data, and the cycles that a history falls into: every reset
closes one, and the calls after the last reset are the cycle that is still open.
-/
namespace SpanMetrics.Registry

inductive Call where
  | offer (name : String)
  | stage (capacity : Nat)
  | reset
deriving DecidableEq, Repr

namespace Call

/-- The name that a call offers. -/
def name? : Call → Option String
  | offer name => some name
  | _ => none

/-- The capacity that a call stages. -/
def capacity? : Call → Option Nat
  | stage capacity => some capacity
  | _ => none

end Call

/-- The answer to an offer is whether the name was taken, and to a reset whether the cycle
overflowed. -/
def perform (r : Registry) : Call → Logged (Option Bool × Registry)
  | .offer name => do
    let (taken, r) ← r.offer name
    return (some taken, r)
  | .stage capacity => return (none, r.stage capacity)
  | .reset => return (some r.reset.1, r.reset.2)

/-- Performs a history and gives the answers in order. -/
def performAll : Registry → List Call → Logged (List (Option Bool) × Registry)
  | r, [] => return ([], r)
  | r, call :: rest => do
    let (answer, r) ← r.perform call
    let (answers, r) ← performAll r rest
    return (answer :: answers, r)

/-- The calls since the last reset. -/
def cycle (calls : List Call) : List Call := (calls.reverse.takeWhile (· ≠ .reset)).reverse

/-- The calls up to the last reset. -/
def closed (calls : List Call) : List Call := (calls.reverse.dropWhile (· ≠ .reset)).reverse

/-- The capacity in a cycle before which these calls were made. -/
def capacityAfter (initial : Nat) (calls : List Call) : Nat :=
  (calls.filterMap Call.capacity?).getLastD initial

/-- The names that calls offer, each where it is offered first. -/
def offeredNames (calls : List Call) : List String := (calls.filterMap Call.name?).eraseDups

end SpanMetrics.Registry
