import SpanMetrics.Proofs.Text.Reading
import SpanMetrics.Settings

/-!
# Settings from the environment

A variable either gives a number that its setting may have, or leaves the standard value
in force; it is refused, with one error that names it, if it says something else. No
variable has a part in the setting of another one, and so the settings are valid
whatever the environment holds.
-/
namespace SpanMetrics.Settings

/-! ## What a variable says -/

/-- A variable says a text: its content is UTF-8, and without the blanks at its two ends
it is that text, which is not empty. -/
def Says (content : Option Bytes) (text : String) : Prop :=
  ∃ whole, content = some (Text.utf8 whole) ∧ Text.Trims whole text ∧ text ≠ ""

/-- A variable gives a number that is allowed. -/
def Gives (allowed : Nat → Prop) (content : Option Bytes) (n : Nat) : Prop :=
  ∃ text, Says content text ∧ Numeral.Denotes text n ∧ allowed n

/-- A variable says a text that gives no number that is allowed. -/
def Refused (allowed : Nat → Prop) (content : Option Bytes) : Prop :=
  (∃ text, Says content text) ∧ ∀ n, ¬ Gives allowed content n

/-- The number in force is the one that a variable gives, the standard one if it gives none. -/
def InForce (allowed : Nat → Prop) (content : Option Bytes) (standard n : Nat) : Prop :=
  Gives allowed content n ∨ (∀ m, ¬ Gives allowed content m) ∧ n = standard

theorem setText?_eq_some_iff {content : Option Bytes} {text : String} :
    setText? content = some text ↔ Says content text := by
  simp only [setText?, Option.filter_eq_some_iff, Option.map_eq_some_iff, Option.bind_eq_some_iff,
    Text.ofUtf8?_eq_some_iff, Text.trim_eq_iff, decide_eq_true_eq]
  constructor
  · intro ⟨⟨whole, ⟨bytes, hc, hb⟩, ht⟩, hne⟩
    exact ⟨whole, hb ▸ hc, ht, hne⟩
  · intro ⟨whole, hc, ht, hne⟩
    exact ⟨⟨whole, ⟨_, hc, rfl⟩, ht⟩, hne⟩

/-! ## One number -/

section

variable {name : String} {limit : Nat} {content : Option Bytes} {ok : Nat → Bool}
  {demand : Nat → String}

theorem gives_iff {n : Nat} :
    Gives (fun m => m < limit ∧ ok m) content n ↔
      ∃ text, setText? content = some text ∧ Numeral.unsigned? limit text = some n ∧ ok n := by
  simp only [Gives, setText?_eq_some_iff, Numeral.unsigned?_eq_some_iff, and_assoc]

/-- All that reading a number comes to: the variable says nothing, it is refused, or it gives
a number within the limit of its type that passes the check. -/
theorem number?_cases (name : String) (limit : Nat) (content : Option Bytes) (ok : Nat → Bool)
    (demand : Nat → String) :
    ((¬ ∃ text, Says content text) ∧ number? name limit content ok demand = pure none) ∨
      (Refused (fun m => m < limit ∧ ok m) content ∧
        ∃ what, number? name limit content ok demand = refuse name what) ∨
      ∃ n, Gives (fun m => m < limit ∧ ok m) content n ∧
        number? name limit content ok demand = pure (some n) := by
  simp only [Refused, gives_iff, ← setText?_eq_some_iff, number?]
  cases setText? content with
  | none => exact .inl ⟨by simp, rfl⟩
  | some text =>
    simp only [Option.some_inj, exists_eq', exists_eq_left', true_and]
    cases Numeral.unsigned? limit text with
    | none => exact .inr (.inl ⟨by simp, _, rfl⟩)
    | some n =>
      by_cases hok : ok n
      · exact .inr (.inr ⟨n, ⟨rfl, hok⟩, if_pos hok⟩)
      · refine .inr (.inl ⟨fun m ⟨he, hm⟩ => ?_, demand n, if_neg hok⟩)
        obtain rfl := Option.some.inj he
        exact hok hm

end

/-- A variable with a number: its name, its content and the numbers that it may give. -/
structure Numeric where
  name : String
  content : Option Bytes
  allowed : Nat → Prop

/-- The variable has been read: its number is in force, whatever the standard one is. If it is
refused then that is reported once, under its name, and nothing is reported otherwise. -/
structure Numeric.Reads (v : Numeric) (out : Logged (Option Nat)) : Prop where
  inForce : ∀ standard, InForce v.allowed v.content standard (out.value.getD standard)
  events : (Refused v.allowed v.content ∧
      ∃ what, out.events = [.say .error ("value of " ++ v.name ++ " " ++ what)]) ∨
    (¬ Refused v.allowed v.content ∧ out.events = [])

theorem reads_number? (name : String) (limit : Nat) (content : Option Bytes) (ok : Nat → Bool)
    (demand : Nat → String) :
    Numeric.Reads ⟨name, content, fun m => m < limit ∧ ok m⟩
      (number? name limit content ok demand) := by
  rcases number?_cases name limit content ok demand with
    ⟨hs, he⟩ | ⟨hr, what, he⟩ | ⟨n, hn, he⟩ <;> rw [he]
  · exact ⟨fun _ => .inr ⟨fun m ⟨text, ht, _⟩ => hs ⟨text, ht⟩, rfl⟩,
      .inr ⟨fun hr => hs hr.1, rfl⟩⟩
  · exact ⟨fun _ => .inr ⟨hr.2, rfl⟩, .inl ⟨hr, what, rfl⟩⟩
  · exact ⟨fun _ => .inl hn, .inr ⟨fun hr => hr.2 n hn, rfl⟩⟩

theorem Gives.unique {allowed : Nat → Prop} {content : Option Bytes} {n m : Nat}
    (hn : Gives allowed content n) (hm : Gives allowed content m) : n = m := by
  obtain ⟨text, ht, hn, _⟩ := hn
  obtain ⟨text', ht', hm, _⟩ := hm
  rw [← setText?_eq_some_iff] at ht ht'
  obtain rfl := Option.some.inj (ht.symm.trans ht')
  exact hn.unique hm

/-- The number in force is determined by the variable and the standard number. -/
theorem InForce.unique {allowed : Nat → Prop} {content : Option Bytes} {standard n m : Nat}
    (hn : InForce allowed content standard n) (hm : InForce allowed content standard m) :
    n = m := by
  rcases hn with hn | ⟨hnone, hn⟩ <;> rcases hm with hm | ⟨hnone', hm⟩
  · exact hn.unique hm
  · exact absurd hn (hnone' n)
  · exact absurd hm (hnone m)
  · rw [hn, hm]

theorem InForce.allowed {allowed : Nat → Prop} {content : Option Bytes} {standard n : Nat}
    (h : InForce allowed content standard n) (hs : allowed standard) : allowed n := by
  rcases h with ⟨_, _, _, ha⟩ | ⟨_, rfl⟩
  · exact ha
  · exact hs

/-! ## All variables -/

namespace Environment

variable (e : Environment)

/-- The histograms have up to five significant figures. -/
def precisionNumber : Numeric := ⟨"APM_HISTOGRAM_PRECISION", e.precision, fun n => n ≤ 5⟩

/-- At least one name is kept. -/
def capacityNumber : Numeric :=
  ⟨"APM_TRANSACTION_CAPACITY", e.capacity, fun n => 1 ≤ n ∧ n < 2 ^ 64⟩

/-- At least one second passes between two messages. -/
def intervalNumber : Numeric :=
  ⟨"APM_METRICS_FLUSH_INTERVAL", e.interval, fun n => 1 ≤ n ∧ n < 2 ^ 64⟩

def numbers : List Numeric := [e.precisionNumber, e.capacityNumber, e.intervalNumber]

end Environment

theorem allowed_precision :
    (fun m => m < Width.limit8 ∧ decide (m ≤ 5) = true) = fun m => m ≤ 5 := by
  funext m
  rw [decide_eq_true_eq]
  exact propext ⟨fun h => h.2, fun h => ⟨Nat.lt_of_le_of_lt h (by decide), h⟩⟩

theorem allowed_positive :
    (fun m => m < Width.limit64 ∧ decide (0 < m) = true) = fun m => 1 ≤ m ∧ m < 2 ^ 64 := by
  funext m
  rw [decide_eq_true_eq]
  exact propext ⟨fun h => ⟨h.2, h.1⟩, fun h => ⟨h.2, h.1⟩⟩

theorem ofSecs_getD (n : Option Nat) :
    (n.map Duration.ofSecs).getD standard.interval = .ofSecs (n.getD 30) := by
  cases n with
  | none => rfl
  | some n => rfl

/-- What is noted about the precision in force, beside the errors. -/
def note (precision : Nat) : List Log.Event :=
  if precision = standard.precision then []
  else [.say .info ("Non-default APM_HISTOGRAM_PRECISION: " ++ toString precision)]

/-- The settings come from one reading of each variable, and their logs stand one behind the
other. -/
theorem exists_readings (e : Environment) :
    ∃ precision capacity interval : Logged (Option Nat), e.precisionNumber.Reads precision ∧
      e.capacityNumber.Reads capacity ∧ e.intervalNumber.Reads interval ∧
      ofEnvironment e = ⟨⟨precision.value.getD standard.precision,
          capacity.value.getD standard.capacity, .ofSecs (interval.value.getD 30),
          setText? e.hostAlias⟩,
        precision.events ++ (note (precision.value.getD standard.precision) ++
          (capacity.events ++ interval.events))⟩ := by
  have hprecision := reads_number? "APM_HISTOGRAM_PRECISION" Width.limit8 e.precision (· ≤ 5)
    fun n => "must be between 0 and 5: " ++ toString n
  have hcapacity := reads_number? "APM_TRANSACTION_CAPACITY" Width.limit64 e.capacity (0 < ·)
    fun _ => "must be greater than 0"
  have hinterval := reads_number? "APM_METRICS_FLUSH_INTERVAL" Width.limit64 e.interval (0 < ·)
    fun _ => "must be greater than 0"
  rw [allowed_precision] at hprecision
  rw [allowed_positive] at hcapacity hinterval
  refine ⟨_, _, _, hprecision, hcapacity, hinterval, ?_⟩
  -- the branches differ in the note alone
  simp only [ofEnvironment, note, ← ofSecs_getD]
  refine Logged.ext ?_ ?_
  · rw [Logged.value_bind]
    split <;> rfl
  · rw [Logged.events_bind]
    split
    · simp only [Logged.events_bind, Logged.events_say, Logged.events_pure, List.append_nil]
    · next h =>
      simp only [if_pos (not_not.1 h), Logged.events_bind, Logged.events_pure, List.append_nil,
        List.nil_append]

/-- Settings out of which each one follows from its own variable. -/
structure Follows (e : Environment) (s : Settings) : Prop where
  precision : InForce e.precisionNumber.allowed e.precision 2 s.precision
  capacity : InForce e.capacityNumber.allowed e.capacity 200 s.capacity
  interval : ∃ secs, InForce e.intervalNumber.allowed e.interval 30 secs ∧
    s.interval = .ofSecs secs
  hostAlias : ∀ text, s.hostAlias = some text ↔ Says e.hostAlias text

theorem follows_ofEnvironment (e : Environment) : Follows e (ofEnvironment e).value := by
  obtain ⟨precision, capacity, interval, hp, hc, hi, he⟩ := exists_readings e
  rw [he]
  exact ⟨hp.inForce 2, hc.inForce 200, ⟨_, hi.inForce 30, rfl⟩, fun _ => setText?_eq_some_iff⟩

/-- Whatever a variable gives is allowed, and so are the standard values. -/
theorem Follows.valid {e : Environment} {s : Settings} (h : Follows e s) :
    s.validate = .ok () := by
  obtain ⟨secs, hsecs, hinterval⟩ := h.interval
  have hp : s.precision ≤ 5 := h.precision.allowed (show 2 ≤ 5 by decide)
  have hc : 1 ≤ s.capacity ∧ s.capacity < 2 ^ 64 :=
    h.capacity.allowed (show 1 ≤ 200 ∧ 200 < 2 ^ 64 by decide)
  have hi : 1 ≤ secs ∧ secs < 2 ^ 64 := hsecs.allowed (show 1 ≤ 30 ∧ 30 < 2 ^ 64 by decide)
  have hnanos : s.interval.nanos ≠ 0 := by
    rw [hinterval]
    show secs * 1000000000 + 0 ≠ 0
    omega
  rw [validate, if_neg (by omega), if_neg (by omega), if_neg hnanos]

theorem countP_note (precision : Nat) : (note precision).countP (·.level = .error) = 0 := by
  rw [note]
  split <;> rfl

open Classical in
theorem Numeric.Reads.countP_events {v : Numeric} {out : Logged (Option Nat)} (h : v.Reads out) :
    out.events.countP (·.level = .error) = if Refused v.allowed v.content then 1 else 0 := by
  rcases h.events with ⟨hr, what, he⟩ | ⟨hr, he⟩
  · rw [he, if_pos hr]
    rfl
  · rw [he, if_neg hr]
    rfl

open Classical in
theorem countP_errors (e : Environment) :
    (ofEnvironment e).events.countP (·.level = .error) =
      e.numbers.countP fun v => Refused v.allowed v.content := by
  obtain ⟨precision, capacity, interval, hp, hc, hi, he⟩ := exists_readings e
  rw [he, List.countP_append, List.countP_append, List.countP_append, countP_note,
    hp.countP_events, hc.countP_events, hi.countP_events]
  simp only [Environment.numbers, List.countP_cons, List.countP_nil, decide_eq_true_eq]
  omega

open Classical in
/-- The settings that the environment gives are valid, each follows from its own variable and
stays as it is when only others change, and there are as many errors as numbers refused. -/
theorem ofEnvironment_usable (e : Environment) :
    (ofEnvironment e).value.validate = .ok () ∧ Follows e (ofEnvironment e).value ∧
      (ofEnvironment e).events.countP (·.level = .error) =
        e.numbers.countP (fun v => Refused v.allowed v.content) ∧
      ∀ other : Environment,
        (other.precision = e.precision →
          (ofEnvironment other).value.precision = (ofEnvironment e).value.precision) ∧
        (other.capacity = e.capacity →
          (ofEnvironment other).value.capacity = (ofEnvironment e).value.capacity) ∧
        (other.interval = e.interval →
          (ofEnvironment other).value.interval = (ofEnvironment e).value.interval) ∧
        (other.hostAlias = e.hostAlias →
          (ofEnvironment other).value.hostAlias = (ofEnvironment e).value.hostAlias) := by
  have hfollows := follows_ofEnvironment e
  refine ⟨hfollows.valid, hfollows, countP_errors e, fun other => ?_⟩
  have hother := follows_ofEnvironment other
  refine ⟨fun h => ?_, fun h => ?_, fun h => ?_, fun h => ?_⟩
  · have hprecision := hother.precision
    rw [h] at hprecision
    exact hprecision.unique hfollows.precision
  · have hcapacity := hother.capacity
    rw [h] at hcapacity
    exact hcapacity.unique hfollows.capacity
  · obtain ⟨secs, hsecs, hinterval⟩ := hfollows.interval
    obtain ⟨secs', hsecs', hinterval'⟩ := hother.interval
    rw [h] at hsecs'
    rw [hinterval, hinterval', hsecs'.unique hsecs]
  · refine Option.ext fun text => ?_
    rw [hother.hostAlias, hfollows.hostAlias, h]

open Classical in
/-- One number is given, with a sign, a zero before it and blanks around it. Two are refused, and
neither has a part in the others. -/
theorem ofEnvironment_usable_of_two_refused :
    let e : Environment := ⟨some (Text.utf8 " +04\n"), some (Text.utf8 "lots"),
      some (Text.utf8 "0"), some (Text.utf8 "\u3000web 1 ")⟩
    (ofEnvironment e).value = ⟨4, 200, .ofSecs 30, some "web 1"⟩ ∧
      (ofEnvironment e).value.validate = .ok () ∧
      (ofEnvironment { e with precision := none }).value.capacity = 200 ∧
      e.numbers.countP (fun v => Refused v.allowed v.content) = 2 := by
  intro e
  have hvalue : (ofEnvironment e).value = ⟨4, 200, .ofSecs 30, some "web 1"⟩ := by decide +kernel
  obtain ⟨hvalid, -, herrors, hother⟩ := ofEnvironment_usable e
  refine ⟨hvalue, hvalid, ?_, ?_⟩
  · rw [(hother { e with precision := none }).2.1 rfl, hvalue]
  · rw [← herrors]
    decide +kernel

end SpanMetrics.Settings
