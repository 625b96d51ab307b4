import SpanMetrics.Message.Snapshot

/-!
# Flushing

A flush closes the cycle of the state and hands its message to a transport. A failure of the
transport is logged and nothing is sent again; where no message could be made, nothing is handed
over. The state is empty after every flush.
-/
namespace SpanMetrics

inductive TransportError where
  | send (cause : String)
deriving DecidableEq, Repr

def TransportError.message : TransportError → String
  | send cause => "Failed to send metrics message: " ++ cause

/-- What a transport says to the messages that it is handed, counted from zero. -/
abbrev Transport := Nat → Except TransportError Unit

structure Circumstances where
  /-- Microseconds since the epoch. -/
  timestamp : Int64
  readings : Host.Readings
  runtime : List RuntimeMetric

structure Flusher where
  host : Host.Identity
  interval : Duration
  state : Aggregation
  /-- The messages that were handed over, in order. -/
  sent : List Bytes

namespace Flusher

def context (f : Flusher) (c : Circumstances) : MessageContext :=
  ⟨f.host, f.interval.wireSecs, c.readings, c.runtime, c.timestamp⟩

def flushNotice (s : Snapshot) : Log.Event :=
  .say .debug ("Flushing metrics message of " ++ toString s.message.length ++ " bytes (" ++
    toString s.omitted ++ " histograms omitted)")

/-- Hands a message over and logs a failure. -/
def send (f : Flusher) (transport : Transport) (message : Bytes) : Logged Flusher := do
  match transport f.sent.length with
  | .ok () => pure ()
  | .error e => Logged.say .error e.message
  return { f with sent := f.sent ++ [message] }

/-- Closes the cycle and hands its message over; the answer is the snapshot, if there is one. -/
def flush (f : Flusher) (transport : Transport) (c : Circumstances) :
    Logged (Option Snapshot × Flusher) := do
  let (result, state) ← f.state.assemble (f.context c)
  let f := { f with state }
  match result with
  | .error e => do
    Logged.say .error ("Failed to build metrics message: " ++ e.message)
    return (none, f)
  | .ok snapshot => do
    Logged.emit (flushNotice snapshot)
    return (some snapshot, ← f.send transport snapshot.message)

end Flusher
end SpanMetrics
