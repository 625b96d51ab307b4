import SpanMetrics.Double.Decimal
import SpanMetrics.Host.File
import SpanMetrics.Log.Logged
import SpanMetrics.Text.Search
import SpanMetrics.Width

/-!
# Load and memory

Readings of the host that are reported with every message. Each one is optional: a source that is
missing or does not make sense is logged and drops that reading alone.
-/
namespace SpanMetrics.Host

structure Readings where
  /-- Load average of the last minute. -/
  load1 : Option Double
  /-- Total memory in bytes. -/
  totalRam : Option Int64
  /-- Free memory in bytes. -/
  freeRam : Option Int64
  /-- Resident memory of the process, in units of 1024 bytes. -/
  processRam : Option Int32
deriving DecidableEq, Repr, Inhabited

def Readings.none : Readings := ⟨.none, .none, .none, .none⟩

namespace Load

/-- The load average of the last minute is the first word of its file. -/
def load1 (f : File) : Except ReadError Double := do
  match (Text.words (← f.text)).head?.bind Double.read? with
  | some x => return x
  | none => .error (.notFound "Load average")

/-- A whole number of 64 bits at the start of some words. -/
def amount? (words : List String) : Option Int :=
  words.head?.bind (Numeral.signed? Width.half64)

/-- Kibibytes as bytes, as many as fit a signed number of 64 bits. -/
def toBytes (kib : Int) : Int64 := Width.saturate64 (kib * 1024)

structure Memory where
  total : Int64
  free : Int64
deriving DecidableEq, Repr

/-- Goes through the lines until both amounts are known. A line with an amount replaces what was
known of it, also by nothing. -/
def scanMemory : (total free : Option Int) → List (Option String) → Except ReadError Memory
  | some total, some free, _ => .ok ⟨toBytes total, toBytes free⟩
  | _, _, [] => .error (.notFound "Memory data")
  | _, _, none :: _ => .error .notText
  | total, free, some line :: rest =>
    match Text.words line with
    | "MemTotal:" :: more => scanMemory (amount? more) free rest
    | "MemFree:" :: more => scanMemory total (amount? more) rest
    | _ => scanMemory total free rest

def memory (f : File) : Except ReadError Memory := do scanMemory none none (← f.lines)

/-- The first line about resident memory settles its amount. -/
def scanResident : List (Option String) → Except ReadError Int32
  | [] => .error (.notFound "VmRSS")
  | none :: _ => .error .notText
  | some line :: rest =>
    match Text.words line with
    | "VmRSS:" :: more =>
      match amount? more with
      | some kib => .ok (if Width.fits32 kib then .ofInt kib else Width.largest32)
      | none => .error (.notFound "VmRSS")
    | _ => scanResident rest

def resident (f : File) : Except ReadError Int32 := do scanResident (← f.lines)

end Load

/-- A result, or nothing and a note about the failure. -/
def Load.orNote {α : Type} (what : String) (r : Except ReadError α) : Logged (Option α) :=
  match r with
  | .ok a => return some a
  | .error e => do
    Logged.say .debug ("Could not read " ++ what ++ ": " ++ e.message)
    return none

def Readings.collect (loadavg meminfo status : File) : Logged Readings := do
  let load1 ← Load.orNote "load average" (Load.load1 loadavg)
  let memory ← Load.orNote "memory info" (Load.memory meminfo)
  let resident ← Load.orNote "process memory" (Load.resident status)
  return ⟨load1, memory.map (·.total), memory.map (·.free), resident⟩

end SpanMetrics.Host
