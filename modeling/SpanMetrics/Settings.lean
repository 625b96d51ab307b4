import SpanMetrics.Duration
import SpanMetrics.Histogram.Layout
import SpanMetrics.Log.Logged
import SpanMetrics.Numeral
import SpanMetrics.Text.Lines
import SpanMetrics.Text.Search
import SpanMetrics.Width

/-!
# Settings

What can be set from outside, from where it is read, and what makes it valid. A variable that makes
no sense is logged and leaves its default in force, so what the environment gives is always valid;
settings put together otherwise may not be.
-/
namespace SpanMetrics

structure Settings where
  /-- Significant figures of the histograms. -/
  precision : Nat
  /-- Distinct transaction names in a cycle. -/
  capacity : Nat
  /-- Time between two messages. -/
  interval : Duration
  /-- Name given to the host. -/
  hostAlias : Option String
deriving DecidableEq, Repr

inductive SettingsError where
  | invalidPrecision (precision : Nat)
  | invalidCapacity
  | invalidInterval
deriving DecidableEq, Repr

def SettingsError.message : SettingsError → String
  | invalidPrecision precision =>
    "Histogram precision must be between 0 and 5, got " ++ toString precision
  | invalidCapacity => "Transaction capacity must be greater than 0"
  | invalidInterval => "Flush interval must be greater than 0"

namespace Settings

def standard : Settings := ⟨Precision.standard.val, 200, .ofSecs 30, none⟩

/-- The first setting that is out of range, if any. -/
def validate (s : Settings) : Except SettingsError Unit :=
  if 5 < s.precision then .error (.invalidPrecision s.precision)
  else if s.capacity = 0 then .error .invalidCapacity
  else if s.interval.nanos = 0 then .error .invalidInterval
  else .ok ()

/-- The interval in whole seconds, as announced on the wire. -/
def intervalSecs (s : Settings) : Int32 := s.interval.wireSecs

/-- Contents of the variables; one that is not set has none. -/
structure Environment where
  precision : Option Bytes
  capacity : Option Bytes
  interval : Option Bytes
  hostAlias : Option Bytes
deriving DecidableEq, Repr

/-- The text of a variable without the blanks around it. A content that is not UTF-8 or blank
counts as not set. -/
def setText? (content : Option Bytes) : Option String :=
  ((content.bind Text.ofUtf8?).map Text.trim).filter (· ≠ "")

def refuse {α : Type} (name what : String) : Logged (Option α) := do
  Logged.say .error ("value of " ++ name ++ " " ++ what)
  return none

/-- A number below `limit` in a variable, if it passes a check. -/
def number? (name : String) (limit : Nat) (content : Option Bytes) (ok : Nat → Bool)
    (demand : Nat → String) : Logged (Option Nat) :=
  match setText? content with
  | none => return none
  | some text =>
    match Numeral.unsigned? limit text with
    | none => refuse name ("is not a valid number: " ++ text)
    | some n => if ok n then return some n else refuse name (demand n)

def ofEnvironment (e : Environment) : Logged Settings := do
  let precision := (← number? "APM_HISTOGRAM_PRECISION" Width.limit8 e.precision (· ≤ 5)
    fun n => "must be between 0 and 5: " ++ toString n).getD standard.precision
  if precision ≠ standard.precision then
    Logged.say .info ("Non-default APM_HISTOGRAM_PRECISION: " ++ toString precision)
  let positive := fun _ => "must be greater than 0"
  let capacity := (← number? "APM_TRANSACTION_CAPACITY" Width.limit64 e.capacity (0 < ·)
    positive).getD standard.capacity
  let interval := ((← number? "APM_METRICS_FLUSH_INTERVAL" Width.limit64 e.interval (0 < ·)
    positive).map Duration.ofSecs).getD standard.interval
  return ⟨precision, capacity, interval, setText? e.hostAlias⟩

end Settings
end SpanMetrics
