import SpanMetrics.Log.Logged
import SpanMetrics.Transaction.Path

/-!
# The registry of transaction names

Within a cycle the registry takes as many distinct names as its capacity, in the order in which
they are offered, and refuses every other name. The first refusal of a cycle is logged. A new
capacity waits for the end of the cycle, so the limit never moves while names are being taken.
-/
namespace SpanMetrics

namespace Transaction

/-- Stands for every transaction that the registry refused. -/
def otherName : String := "other"

/-- Stands for the transactions without a name. -/
def unknownName : String := "unknown"

end Transaction

structure Registry where
  /-- Names of the cycle, in the order in which they were taken. -/
  names : List String
  capacity : Nat
  /-- Capacity of the next cycle. -/
  staged : Nat
  /-- Whether a name was refused in the cycle. -/
  overflow : Bool
deriving DecidableEq, Repr

namespace Registry

def new (capacity : Nat) : Registry := ⟨[], capacity, capacity, false⟩

def size (r : Registry) : Nat := r.names.length

def isEmpty (r : Registry) : Bool := r.names.isEmpty

def limitNotice (capacity : Nat) : Log.Event :=
  .say .warn ("Transaction name limit of " ++ toString capacity ++
    " reached, reporting new names as '" ++ Transaction.otherName ++ "'")

/-- Offers a name; the answer is whether the registry has it afterwards. -/
def offer (r : Registry) (name : String) : Logged (Bool × Registry) :=
  if name ∈ r.names then return (true, r)
  else if r.names.length < r.capacity then
    return (true, { r with names := r.names ++ [name] })
  else do
    if !r.overflow then Logged.emit (limitNotice r.capacity)
    return (false, { r with overflow := true })

def stage (r : Registry) (capacity : Nat) : Registry := { r with staged := capacity }

/-- Starts a cycle; the answer is whether the one before overflowed. -/
def reset (r : Registry) : Bool × Registry := (r.overflow, new r.staged)

end Registry
end SpanMetrics
