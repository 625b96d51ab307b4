import SpanMetrics.Flusher.Basic
import SpanMetrics.Flusher.Loop

/-!
# Taking turns

The flush loops of a flusher and the caller who asked for them do their work in turns. Whoever has
the turn keeps it until it has to wait, but a turn has an end: nobody goes on after `turnLimit`
waits that were over at once. While the caller waits, the loops that are ready are given turns in
rounds, and time passes when none is ready: the clock goes on to the next millisecond in which
someone wakes. If the caller is among them, it goes first. Flushing takes no time.

Cancelling is for good. It wakes every loop, and each flushes one last time at its next turn; so
does a loop that is asked for afterwards. Every loop numbers its flushes for itself, and reports
each inside a span with the number. Without time between two flushes a loop cannot begin: it fails
at its first turn.
-/
namespace SpanMetrics

structure FlushTurns where
  flusher : Flusher
  /-- Milliseconds that have passed. -/
  now : Nat
  /-- The loops that are to be given a turn, in order. -/
  ready : List FlushLoop
  /-- The loops that wait for their next flush, in the order in which they began to wait. -/
  idle : List FlushLoop
  /-- How many loops were asked for. -/
  asked : Nat
  /-- The loop that was asked for last, if the caller has not waited for its end. -/
  pending : Option Nat
  cancelled : Bool
  /-- How many more waits the turn of the caller may hold. -/
  patience : Nat

namespace FlushTurns

def turnLimit : Nat := 128

def roundLimit : Nat := 61

def new (f : Flusher) : FlushTurns := ⟨f, 0, [], [], 0, none, false, turnLimit⟩

def period (s : FlushTurns) : Duration := FlushLoop.period s.flusher.interval

/-- Whether loops can begin. -/
def isTimed (s : FlushTurns) : Bool := 0 < s.period.nanos

def flushSpan (cycle : Nat) : Log.Span := ⟨.debug, "flush", [⟨"cycle", .number cycle⟩]⟩

/-- So many flushes, numbered from `cycle` on. -/
def flushCycles (transport : Transport) (c : Circumstances) :
    (count cycle : Nat) → FlushTurns → Logged FlushTurns
  | 0, _, s => return s
  | count + 1, cycle, s => do
    let (_, flusher) ← (s.flusher.flush transport c).within (flushSpan cycle)
    flushCycles transport c count (cycle + 1) { s with flusher }

/-- Gives a turn to a loop, and gives back a loop whose turn ended before it had to wait: one that
cannot finish its flushes in one turn, or has just finished them when the turn is at its end. -/
def turn (transport : Transport) (c : Circumstances) (s : FlushTurns) (l : FlushLoop) :
    Logged (FlushTurns × Option FlushLoop) := do
  let l := l.begun s.now
  if !s.isTimed then return (s, none)
  else if s.cancelled then
    Logged.say .debug "Final flush of metrics"
    return (← flushCycles transport c 1 (l.flushes + 1) s, none)
  else
    let count := min turnLimit (l.due s.period s.now)
    let s ← flushCycles transport c count (l.flushes + 1) s
    let l := { l with flushes := l.flushes + count }
    return if count < turnLimit then ({ s with idle := s.idle ++ [l] }, none) else (s, some l)

/-- Gives a turn each to loops, and gathers those whose turn ended before they had to wait, the
last one first. -/
def turns (transport : Transport) (c : Circumstances) :
    (loops late : List FlushLoop) → FlushTurns → Logged (FlushTurns × List FlushLoop)
  | [], late, s => return (s, late)
  | l :: loops, late, s => do
    let (s, again) ← turn transport c s l
    turns transport c loops (again.toList ++ late) s

/-- Gives a turn each to the first loops that are ready. Those that go on afterwards are ready
again when the round is over. -/
def round (s : FlushTurns) (transport : Transport) (c : Circumstances) : Logged FlushTurns := do
  let rest : FlushTurns := { s with ready := s.ready.drop roundLimit }
  let (s, late) ← turns transport c (s.ready.take roundLimit) [] rest
  return { s with ready := s.ready ++ late }

/-- Rounds until something is so, at most so many. -/
def roundsUntil (stop : FlushTurns → Bool) (transport : Transport) (c : Circumstances) :
    Nat → FlushTurns → Logged FlushTurns
  | 0, s => return s
  | n + 1, s => do
    if stop s then return s
    roundsUntil stop transport c n (← s.round transport c)

/-- How many turns the loops that are ready need until all of them wait or have ended. -/
def turnsNeeded (s : FlushTurns) : Nat :=
  s.ready.foldr (fun l n => l.due s.period s.now / turnLimit + 1 + n) 0

/-- Rounds until no loop is ready. Every round gives a turn at least. -/
def settle (s : FlushTurns) (transport : Transport) (c : Circumstances) : Logged FlushTurns :=
  roundsUntil (·.ready.isEmpty) transport c s.turnsNeeded s

/-- The clock goes on; the loops that have a flush to do are ready. -/
def elapse (s : FlushTurns) (now : Nat) : FlushTurns :=
  let isDue := fun (l : FlushLoop) => 0 < l.due s.period now
  { s with
    now
    ready := s.ready ++ s.idle.filter isDue
    idle := s.idle.filter (!isDue ·) }

/-- Lets the loops work that wake before some time, at most so many times. -/
def workUntil (transport : Transport) (c : Circumstances) (time : Nat) :
    Nat → FlushTurns → Logged FlushTurns
  | 0, s => return s
  | n + 1, s => do
    match (s.idle.map (·.wake s.period)).min? with
    | none => return s
    | some wake =>
      if wake < time then workUntil transport c time n (← (s.elapse wake).settle transport c)
      else return s

/-- How many flushes fall due until some time. -/
def flushesUntil (s : FlushTurns) (time : Nat) : Nat :=
  s.idle.foldr (fun l n => l.due s.period time + n) 0

/-- Asks for one more loop. -/
def ask (s : FlushTurns) : FlushTurns :=
  { s with
    ready := s.ready ++ [.new s.asked]
    asked := s.asked + 1
    pending := some s.asked }

/-- The caller has waited, and has a new turn. That it goes on counts as one wait. -/
def resume (s : FlushTurns) : FlushTurns := { s with patience := turnLimit - 1 }

/-- The caller meets a wait that is over at once; only at the end of its turn the loops are given
a round. -/
def pause (s : FlushTurns) (transport : Transport) (c : Circumstances) : Logged FlushTurns := do
  if 0 < s.patience then return { s with patience := s.patience - 1 }
  return (← s.round transport c).resume

def sleep (s : FlushTurns) (transport : Transport) (c : Circumstances) (millis : Nat) :
    Logged FlushTurns := do
  if millis = 0 then s.pause transport c
  else
    let s ← s.settle transport c
    let time := s.now + min millis FlushLoop.longestWait
    let s ← workUntil transport c time (s.flushesUntil time) s
    return (s.elapse time).resume

def has (s : FlushTurns) (number : Nat) : Bool := (s.ready ++ s.idle).any (·.number = number)

/-- Cancels the loops. The caller waits for the end of the one that was asked for last; the answer,
if there is one to wait for, is whether it came to its end without failing. -/
def cancel (s : FlushTurns) (transport : Transport) (c : Circumstances) :
    Logged (Option Bool × FlushTurns) := do
  let ready := s.ready ++ s.idle
  let cancelled : FlushTurns := { s with ready, idle := [], cancelled := true, pending := none }
  match s.pending with
  | none => return (none, cancelled)
  | some number =>
    if cancelled.has number then
      let ended ← roundsUntil (!·.has number) transport c ready.length cancelled
      return (some s.isTimed, ended.resume)
    else return (some s.isTimed, ← cancelled.pause transport c)

end FlushTurns
end SpanMetrics
