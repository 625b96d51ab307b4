import Mathlib.Algebra.Order.BigOperators.Group.List
import SpanMetrics.Proofs.Flusher.Steps

/-!
# Turns are made of steps

The turns, the rounds and the waiting of a flusher are chains of steps. Each of them goes on
for as long as there is something to do: after a settlement no loop is ready, a caller who
slept finds nothing left that fell due before it woke, and one who cancels waits until the
loop that was asked for last has come to its end.
-/
namespace SpanMetrics
namespace FlushTurns

variable {transport : Transport} {c : Circumstances} {s t : FlushTurns}

/-! ## One turn and one round -/

theorem value_flushCycles (transport : Transport) (c : Circumstances) (count cycle : Nat)
    (s : FlushTurns) :
    (flushCycles transport c count cycle s).value =
      { s with flusher := s.flusher.flushed transport c count } := by
  induction count generalizing cycle s with
  | zero => rfl
  | succ count ih =>
    rw [flushCycles, Logged.value_bind, Logged.value_within, ih, Flusher.flushed_succ]

/-- Each flush is logged inside a span with its number. -/
theorem events_flushCycles (transport : Transport) (c : Circumstances) (count cycle : Nat)
    (s : FlushTurns) :
    (flushCycles transport c count cycle s).events =
      (List.range count).flatMap fun i =>
        ((s.flusher.flushed transport c i).flush transport c).events.map
          (·.within (flushSpan (cycle + i))) := by
  induction count generalizing cycle s with
  | zero => rfl
  | succ count ih =>
    have hnext : ∀ i, cycle + 1 + i = cycle + (i + 1) := fun i => by omega
    rw [flushCycles, Logged.events_bind, ih, List.range_succ_eq_map, List.flatMap_cons,
      List.flatMap_map]
    simp only [Logged.value_within, hnext, Flusher.flushed_succ]
    rfl

/-- What a turn comes to, and whether its loop has to go on. -/
inductive Turned (transport : Transport) (c : Circumstances) (s : FlushTurns) (l : FlushLoop) :
    FlushTurns × Option FlushLoop → Prop
  | failed (ht : s.isTimed = false) : Turned transport c s l (s, none)
  | ended (ht : s.isTimed = true) (hc : s.cancelled = true) :
      Turned transport c s l ({ s with flusher := s.flusher.flushed transport c 1 }, none)
  | waits (ht : s.isTimed = true) (hc : s.cancelled = false) {count : Nat}
      (hdue : count = (l.begun s.now).due s.period s.now) :
      Turned transport c s l
        ({ s with
          flusher := s.flusher.flushed transport c count
          idle := s.idle ++ [(l.begun s.now).flushed count] }, none)
  | goesOn (ht : s.isTimed = true) (hc : s.cancelled = false) {count : Nat}
      (hcount : count = turnLimit) (hdue : count ≤ (l.begun s.now).due s.period s.now) :
      Turned transport c s l
        ({ s with flusher := s.flusher.flushed transport c count },
          some ((l.begun s.now).flushed count))

theorem turned (transport : Transport) (c : Circumstances) (s : FlushTurns) (l : FlushLoop) :
    Turned transport c s l (turn transport c s l).value := by
  rw [turn]
  obtain ht | ht := Bool.eq_false_or_eq_true s.isTimed
  · rw [if_neg (by rw [ht]; decide)]
    obtain hc | hc := Bool.eq_false_or_eq_true s.cancelled
    · rw [if_pos hc, Logged.value_bind, Logged.value_bind, value_flushCycles]
      exact .ended ht hc
    · rw [if_neg (by rw [hc]; decide), Logged.value_bind, value_flushCycles, Logged.value_pure]
      dsimp only
      obtain hdue | hdue := Nat.lt_or_ge ((l.begun s.now).due s.period s.now) turnLimit
      · rw [Nat.min_eq_right hdue.le, if_pos hdue]
        exact .waits ht hc rfl
      · rw [Nat.min_eq_left hdue, if_neg (Nat.lt_irrefl turnLimit)]
        exact .goesOn ht hc rfl hdue
  · rw [if_pos (by rw [ht]; rfl)]
    exact .failed ht

/-- What a loop leaves alone in its turn. -/
structure Unmoved (s t : FlushTurns) : Prop where
  ready : t.ready = s.ready
  now : t.now = s.now
  cancelled : t.cancelled = s.cancelled
  period : t.period = s.period

theorem unmoved_turn (transport : Transport) (c : Circumstances) (s : FlushTurns)
    (l : FlushLoop) : Unmoved s (turn transport c s l).value.1 := by
  have hperiod : ∀ count idle, period { s with
      flusher := s.flusher.flushed transport c count, idle } = s.period := fun count idle =>
    period_of_interval (Flusher.interval_flushed ..)
  have hturn := turned transport c s l
  generalize (turn transport c s l).value = out at hturn ⊢
  cases hturn with
  | failed => exact ⟨rfl, rfl, rfl, rfl⟩
  | ended | waits | goesOn => exact ⟨rfl, rfl, rfl, hperiod _ _⟩

theorem value_turns_cons (transport : Transport) (c : Circumstances) (l : FlushLoop)
    (loops late : List FlushLoop) (s : FlushTurns) :
    (turns transport c (l :: loops) late s).value =
      (turns transport c loops ((turn transport c s l).value.2.toList ++ late)
        (turn transport c s l).value.1).value := rfl

theorem unmoved_turns (transport : Transport) (c : Circumstances) (loops late : List FlushLoop)
    (s : FlushTurns) : Unmoved s (turns transport c loops late s).value.1 := by
  induction loops generalizing late s with
  | nil => exact ⟨rfl, rfl, rfl, rfl⟩
  | cons l loops ih =>
    rw [value_turns_cons]
    have hfirst := unmoved_turn transport c s l
    have hrest := ih ((turn transport c s l).value.2.toList ++ late) (turn transport c s l).value.1
    exact ⟨hrest.ready.trans hfirst.ready, hrest.now.trans hfirst.now,
      hrest.cancelled.trans hfirst.cancelled, hrest.period.trans hfirst.period⟩

/-- The turn of a loop that was the first one to be ready. -/
theorem steps_turn (transport : Transport) (c : Circumstances) (s : FlushTurns) (l : FlushLoop)
    (rest : List FlushLoop) :
    let out := (turn transport c s l).value
    Steps transport c { s with ready := l :: rest }
      { out.1 with ready := out.2.toList ++ rest } := by
  have hturn := turned transport c s l
  generalize (turn transport c s l).value = out at hturn ⊢
  cases hturn with
  | failed ht => exact .single (.fail (s := { s with ready := l :: rest }) rfl ht)
  | ended ht hc => exact .single (.finish (s := { s with ready := l :: rest }) rfl ht hc)
  | goesOn ht hc hcount hdue =>
    exact .single (.flush (s := { s with ready := l :: rest }) rfl ht hc hdue)
  | @waits ht hc count hdue =>
    -- it does what is due, and then it begins to wait
    have hflush : Step transport c { s with ready := l :: rest } _ :=
      .flush (s := { s with ready := l :: rest }) rfl ht hc hdue.le
    refine .tail (.single hflush) (.wait rfl (hflush.isTimed.trans ht) hc rfl ?_)
    rw [hflush.period, FlushLoop.due_flushed]
    exact Nat.sub_eq_zero_of_le hdue.ge

theorem steps_turns (transport : Transport) (c : Circumstances)
    (loops late rest : List FlushLoop) (s : FlushTurns) :
    let out := (turns transport c loops late s).value
    Steps transport c { s with ready := loops ++ late ++ rest }
      { out.1 with ready := out.2 ++ rest } := by
  induction loops generalizing late s with
  | nil => exact .refl
  | cons l loops ih =>
    rw [value_turns_cons]
    have hfirst := steps_turn transport c s l (loops ++ late ++ rest)
    have hrest := ih ((turn transport c s l).value.2.toList ++ late) (turn transport c s l).value.1
    refine (hfirst.tail (.order ?_)).trans hrest
    dsimp only
    generalize (turn transport c s l).value.2.toList = again
    rw [← List.append_assoc, ← List.append_assoc, ← List.append_assoc]
    exact (List.perm_append_comm.append_right late).append_right rest

theorem steps_round (transport : Transport) (c : Circumstances) (s : FlushTurns) :
    Steps transport c s (s.round transport c).value := by
  have hturns := steps_turns transport c (s.ready.take roundLimit) [] (s.ready.drop roundLimit)
    { s with ready := s.ready.drop roundLimit }
  rw [List.append_nil] at hturns
  have hready := (unmoved_turns transport c (s.ready.take roundLimit) []
    { s with ready := s.ready.drop roundLimit }).ready
  have hstart : { s with ready := s.ready.take roundLimit ++ s.ready.drop roundLimit } = s := by
    rw [List.take_append_drop]
  rw [hstart] at hturns
  refine hturns.tail (.order ?_)
  rw [hready]
  exact List.perm_append_comm

theorem steps_roundsUntil (stop : FlushTurns → Bool) (transport : Transport) (c : Circumstances)
    (n : Nat) (s : FlushTurns) :
    Steps transport c s (roundsUntil stop transport c n s).value := by
  induction n generalizing s with
  | zero => exact .refl
  | succ n ih =>
    rw [roundsUntil]
    split
    · exact .refl
    · exact (steps_round transport c s).trans (ih _)

theorem steps_settle (transport : Transport) (c : Circumstances) (s : FlushTurns) :
    Steps transport c s (s.settle transport c).value :=
  steps_roundsUntil _ transport c _ s

/-! ## Rounds enough -/

/-- Rounds come to an end where each of them leaves less to do. -/
theorem stop_roundsUntil (transport : Transport) (c : Circumstances) (stop : FlushTurns → Bool)
    (P : FlushTurns → Prop) (measure : FlushTurns → Nat)
    (hround : ∀ s, P s → P (s.round transport c).value)
    (hless : ∀ s, P s → stop s = false → measure (s.round transport c).value < measure s)
    {n : Nat} (hs : P s) (hn : measure s ≤ n) :
    stop (roundsUntil stop transport c n s).value = true := by
  induction n generalizing s with
  | zero =>
    obtain hstop | hstop := Bool.eq_false_or_eq_true (stop s)
    · exact hstop
    · have := hless s hs hstop
      omega
  | succ n ih =>
    rw [roundsUntil]
    split
    · assumption
    · next hstop =>
      have := hless s hs (Bool.eq_false_of_not_eq_true hstop)
      exact ih (hround s hs) (by omega)

/-- The turns that a loop needs until it waits or has ended. -/
def needed (period : Duration) (now : Nat) (l : FlushLoop) : Nat := l.due period now / turnLimit + 1

theorem turnsNeeded_eq (s : FlushTurns) :
    s.turnsNeeded = (s.ready.map (needed s.period s.now)).sum := by
  rw [turnsNeeded]
  induction s.ready with
  | nil => rfl
  | cons l rest ih => rw [List.foldr_cons, ih, List.map_cons, List.sum_cons, needed]

/-- After a turn less is needed. -/
theorem needed_turn (transport : Transport) (c : Circumstances) (s : FlushTurns) (l : FlushLoop) :
    ((turn transport c s l).value.2.toList.map (needed s.period s.now)).sum + 1 ≤
      needed s.period s.now l := by
  have hturn := turned transport c s l
  generalize (turn transport c s l).value = out at hturn ⊢
  cases hturn with
  | failed | ended | waits => exact Nat.succ_le_succ (Nat.zero_le _)
  | goesOn ht hc hcount hdue =>
    have hlimit : 0 < turnLimit := by decide
    -- a loop that has just begun has nothing to do
    have hl : l.start.isSome := by
      cases hstart : l.start with
      | some start => rfl
      | none =>
        rw [FlushLoop.due_begun_of_none hstart] at hdue
        omega
    rw [FlushLoop.begun_of_isSome hl, hcount] at hdue
    rw [FlushLoop.begun_of_isSome hl, hcount, Option.toList_some, List.map_singleton,
      List.sum_singleton, needed, needed, FlushLoop.due_flushed, Nat.div_eq_sub_div hlimit hdue]

theorem needed_turns (transport : Transport) (c : Circumstances) (loops late : List FlushLoop)
    (s : FlushTurns) :
    ((turns transport c loops late s).value.2.map (needed s.period s.now)).sum + loops.length ≤
      ((loops ++ late).map (needed s.period s.now)).sum := by
  induction loops generalizing late s with
  | nil => exact Nat.le_refl _
  | cons l loops ih =>
    have hfirst := needed_turn transport c s l
    have hkept := unmoved_turn transport c s l
    have hrest := ih ((turn transport c s l).value.2.toList ++ late) (turn transport c s l).value.1
    rw [hkept.period, hkept.now] at hrest
    rw [value_turns_cons, List.length_cons]
    simp only [List.map_append, List.sum_append, List.cons_append, List.map_cons,
      List.sum_cons] at hrest ⊢
    omega

theorem value_round (transport : Transport) (c : Circumstances) (s : FlushTurns) :
    let out := (turns transport c (s.ready.take roundLimit) []
      { s with ready := s.ready.drop roundLimit }).value
    (s.round transport c).value = { out.1 with ready := s.ready.drop roundLimit ++ out.2 } := by
  intro out
  have hready : out.1.ready = s.ready.drop roundLimit := (unmoved_turns transport c _ [] _).ready
  rw [← hready]
  rfl

/-- A round is of use where a loop is ready. -/
theorem turnsNeeded_round (transport : Transport) (c : Circumstances) (s : FlushTurns)
    (h : s.ready ≠ []) : (s.round transport c).value.turnsNeeded < s.turnsNeeded := by
  have hround := value_round transport c s
  have hkept := unmoved_turns transport c (s.ready.take roundLimit) []
    { s with ready := s.ready.drop roundLimit }
  have hturns := needed_turns transport c (s.ready.take roundLimit) []
    { s with ready := s.ready.drop roundLimit }
  generalize (turns transport c (s.ready.take roundLimit) []
    { s with ready := s.ready.drop roundLimit }).value = out at hround hkept hturns
  have hperiod : period { out.1 with ready := s.ready.drop roundLimit ++ out.2 } = s.period :=
    hkept.period
  have hnow : out.1.now = s.now := hkept.now
  change (out.2.map (needed s.period s.now)).sum + _ ≤
    (List.map (needed s.period s.now) _).sum at hturns
  have htaken : 0 < (s.ready.take roundLimit).length := by
    rw [List.length_take]
    exact Nat.lt_min.2 ⟨by decide, List.length_pos_iff.2 h⟩
  have hall : ((s.ready.take roundLimit).map (needed s.period s.now)).sum +
      ((s.ready.drop roundLimit).map (needed s.period s.now)).sum = s.turnsNeeded := by
    rw [turnsNeeded_eq, ← List.sum_append, ← List.map_append, List.take_append_drop]
  rw [hround, ← hall, turnsNeeded_eq, hperiod, hnow, List.map_append, List.sum_append]
  rw [List.append_nil] at hturns
  omega

/-- There are rounds enough for every loop to wait or to end. -/
theorem ready_settle (transport : Transport) (c : Circumstances) (s : FlushTurns) :
    (s.settle transport c).value.ready = [] := by
  have hless : ∀ s : FlushTurns, True → s.ready.isEmpty = false →
      (s.round transport c).value.turnsNeeded < s.turnsNeeded := fun s _ hs =>
    turnsNeeded_round transport c s fun hnil => by
      rw [hnil] at hs
      cases hs
  exact List.isEmpty_iff.1 (stop_roundsUntil transport c (·.ready.isEmpty) (fun _ => True)
    turnsNeeded (fun _ _ => trivial) hless trivial (Nat.le_refl _))

theorem now_round (transport : Transport) (c : Circumstances) (s : FlushTurns) :
    (s.round transport c).value.now = s.now := by
  rw [value_round]
  exact (unmoved_turns transport c _ [] _).now

theorem now_roundsUntil (stop : FlushTurns → Bool) (transport : Transport) (c : Circumstances)
    (n : Nat) (s : FlushTurns) : (roundsUntil stop transport c n s).value.now = s.now := by
  induction n generalizing s with
  | zero => rfl
  | succ n ih =>
    rw [roundsUntil]
    split
    · rfl
    · exact (ih _).trans (now_round transport c s)

/-- Flushing takes no time. -/
theorem now_settle (transport : Transport) (c : Circumstances) (s : FlushTurns) :
    (s.settle transport c).value.now = s.now :=
  now_roundsUntil _ transport c _ s

/-! ## While the caller sleeps -/

theorem flushesUntil_eq (s : FlushTurns) (time : Nat) :
    s.flushesUntil time = (s.idle.map fun l => l.due s.period time).sum := by
  rw [flushesUntil]
  induction s.idle with
  | nil => rfl
  | cons l rest ih => rw [List.foldr_cons, ih, List.map_cons, List.sum_cons]

theorem owed_of_ready (hs : s.Sound) (hr : s.ready = []) (time : Nat) :
    s.owed time = s.flushesUntil time := by
  have hloops : s.loops = s.idle := by rw [loops, hr, List.nil_append]
  rw [owed_eq_of_isSome (hloops ▸ fun l hl => (hs.waiting l hl).1), hloops, flushesUntil_eq]

/-- Once no loop is ready, nothing is owed. -/
theorem owed_now (hs : s.Sound) (hr : s.ready = []) : s.owed s.now = 0 := by
  rw [owed_of_ready hs hr, flushesUntil_eq]
  refine List.sum_eq_zero fun due hdue => ?_
  obtain ⟨l, hl, rfl⟩ := List.mem_map.1 hdue
  exact (hs.waiting l hl).2

theorem period_pos (h : s.isTimed = true) : 0 < s.period.nanos := of_decide_eq_true h

/-- A loop that wakes before some time has a flush to do until then. -/
theorem flushesUntil_pos (hs : s.Sound) {l : FlushLoop} (hl : l ∈ s.idle) {time : Nat}
    (h : l.wake s.period ≤ time) : 0 < s.flushesUntil time := by
  have hdue : 0 < l.due s.period time :=
    (FlushLoop.due_pos_iff (hs.waiting l hl).1 (period_pos (hs.going l hl).1)).2 h
  rw [flushesUntil_eq]
  exact hdue.trans_le (List.le_sum_of_mem (List.mem_map_of_mem hl))

theorem now_lt_wake (hs : s.Sound) {l : FlushLoop} (hl : l ∈ s.idle) :
    s.now < l.wake s.period := by
  obtain ⟨hbegun, hdue⟩ := hs.waiting l hl
  have hnot := (FlushLoop.due_pos_iff hbegun (period_pos (hs.going l hl).1)).not.1 hdue.not_gt
  exact Nat.lt_of_not_ge hnot

/-- The loops do what falls due before some time, and the clock does not go beyond. -/
structure Waited (transport : Transport) (c : Circumstances) (time : Nat) (s t : FlushTurns) :
    Prop where
  steps : Steps transport c s t
  ready : t.ready = []
  now : t.now ≤ time
  wake : ∀ l ∈ t.idle, time ≤ l.wake t.period

theorem waited_workUntil (transport : Transport) (c : Circumstances) {time n : Nat} (hs : s.Sound)
    (hr : s.ready = []) (hnow : s.now ≤ time) (hn : s.flushesUntil time ≤ n) :
    Waited transport c time s (workUntil transport c time n s).value := by
  induction n generalizing s with
  | zero =>
    refine ⟨.refl, hr, hnow, fun l hl => ?_⟩
    refine Nat.le_of_lt (Nat.lt_of_not_ge fun hwake => ?_)
    have := flushesUntil_pos hs hl hwake
    omega
  | succ n ih =>
    rw [workUntil]
    cases hmin : (s.idle.map (·.wake s.period)).min? with
    | none =>
      have hidle : s.idle = [] := List.map_eq_nil_iff.1 (List.min?_eq_none_iff.1 hmin)
      refine ⟨.refl, hr, hnow, fun l hl => ?_⟩
      change l ∈ s.idle at hl
      rw [hidle] at hl
      cases hl
    | some wake =>
      obtain ⟨hmem, hleast⟩ := List.min?_eq_some_iff.1 hmin
      obtain ⟨first, hfirst, hwake⟩ := List.mem_map.1 hmem
      dsimp only
      split
      · next hlt =>
        have hlater : s.now ≤ wake := hwake ▸ (now_lt_wake hs hfirst).le
        let next := ((s.elapse wake).settle transport c).value
        have hsteps : Steps transport c s next :=
          .head (.elapse hr hlater) (steps_settle transport c _)
        have hsound : next.Sound := hs.steps hsteps
        have hready : next.ready = [] := ready_settle transport c _
        have hnext : next.now = wake := now_settle transport c _
        -- what was due at the waking of the first loop is done
        obtain ⟨count, hworked⟩ := Steps.worked hs hsteps
        obtain ⟨htimed, hgoing⟩ := hs.going first hfirst
        have howed := hworked.owed htimed hgoing
        have hdone := howed wake hnext.le
        have hleft := howed time (hnext.le.trans hlt.le)
        rw [← hnext, owed_now hsound hready, hnext, owed_of_ready hs hr] at hdone
        rw [owed_of_ready hsound hready, owed_of_ready hs hr] at hleft
        have hpos := flushesUntil_pos hs hfirst hwake.le
        have hrest := ih hsound hready (hnext.le.trans hlt.le) (by omega)
        exact ⟨hsteps.trans hrest.steps, hrest.ready, hrest.now, hrest.wake⟩
      · next hge =>
        refine ⟨.refl, hr, hnow, fun l hl => ?_⟩
        exact (Nat.le_of_not_lt hge).trans (hleast _ (List.mem_map_of_mem hl))

theorem steps_pause (transport : Transport) (c : Circumstances) (s : FlushTurns) :
    Steps transport c s (s.pause transport c).value := by
  rw [pause]
  split
  · exact .single .resume
  · exact (steps_round transport c s).tail .resume

/-- What a caller finds after it slept: nothing is left to do but what falls due just now. -/
structure Slept (transport : Transport) (c : Circumstances) (millis : Nat) (s t : FlushTurns) :
    Prop where
  steps : Steps transport c s t
  now : t.now = s.now + min millis FlushLoop.longestWait
  wake : millis ≠ 0 → ∀ l ∈ t.loops, l.start.isSome ∧ t.now ≤ l.wake t.period

theorem slept_sleep (hs : s.Sound) (transport : Transport) (c : Circumstances) (millis : Nat) :
    Slept transport c millis s (s.sleep transport c millis).value := by
  rw [sleep]
  split
  · next h =>
    refine ⟨steps_pause transport c s, ?_, fun hne => absurd h hne⟩
    rw [pause, h, Nat.zero_min, Nat.add_zero]
    split
    · rfl
    · exact now_round transport c s
  · next h =>
    have hsettle := steps_settle transport c s
    have hready := ready_settle transport c s
    have hnow := now_settle transport c s
    rw [Logged.value_bind]
    generalize (s.settle transport c).value = settled at hsettle hready hnow ⊢
    have hwaited := waited_workUntil transport c (hs.steps hsettle) hready
      (Nat.le_add_right settled.now (min millis FlushLoop.longestWait)) (Nat.le_refl _)
    rw [Logged.value_bind]
    generalize (workUntil transport c _ _ settled).value = t at hwaited ⊢
    have hsteps := hsettle.trans hwaited.steps
    refine ⟨(hsteps.tail (.elapse hwaited.ready hwaited.now)).tail .resume, ?_, fun _ l hl => ?_⟩
    · rw [← hnow]
      rfl
    · have hl : l ∈ t.idle := by
        have hperm := (t.perm_loops_elapse _).mem_iff.1 hl
        rwa [loops, hwaited.ready] at hperm
      exact ⟨((hs.steps hsteps).waiting l hl).1, hwaited.wake l hl⟩

/-! ## When the loops are cancelled -/

/-- All loops are woken for the last time. -/
def calledOff (s : FlushTurns) : FlushTurns :=
  { s with ready := s.ready ++ s.idle, idle := [], cancelled := true, pending := none }

theorem Sound.calledOff (hs : s.Sound) : s.calledOff.Sound := by
  refine ⟨?_, List.forall_mem_nil _, List.forall_mem_nil _⟩
  rw [loops, FlushTurns.calledOff, List.append_nil]
  exact hs.orderly

/-- Cancelled loops do not wait. -/
theorem Sound.idle_eq_nil (hs : s.Sound) (hc : s.cancelled = true) : s.idle = [] := by
  refine List.eq_nil_iff_forall_not_mem.2 fun l hl => ?_
  exact absurd (hc.symm.trans (hs.going l hl).2) (by decide)

theorem late_turns (hc : s.cancelled = true) (transport : Transport) (c : Circumstances)
    (loops late : List FlushLoop) : (turns transport c loops late s).value.2 = late := by
  induction loops generalizing late s with
  | nil => rfl
  | cons l loops ih =>
    have hnone : (turn transport c s l).value.2 = none := by
      have hturn := turned transport c s l
      generalize (turn transport c s l).value = out at hturn ⊢
      cases hturn with
      | failed | ended => rfl
      | waits _ h | goesOn _ h => exact absurd (hc.symm.trans h) (by decide)
    have hcancelled := (unmoved_turn transport c s l).cancelled
    rw [value_turns_cons, ih (hcancelled.trans hc), hnone]
    rfl

/-- A round is the last one for the loops that have a turn in it. -/
theorem ready_round (hc : s.cancelled = true) (transport : Transport) (c : Circumstances) :
    (s.round transport c).value.ready = s.ready.drop roundLimit := by
  rw [value_round, late_turns (s := { s with ready := s.ready.drop roundLimit }) hc]
  exact List.append_nil _

theorem has_eq_false_iff {number : Nat} :
    s.has number = false ↔ number ∉ s.loops.map (·.number) := by
  rw [has, ← loops, List.any_eq_false]
  simp

theorem has_of_steps (hs : s.Sound) {number : Nat} (h : s.has number = false)
    (hsteps : Steps transport c s t) : t.has number = false := by
  obtain ⟨count, hworked⟩ := Steps.worked hs hsteps
  rw [has_eq_false_iff] at h ⊢
  exact fun hmem => h (hworked.numbers.subset hmem)

theorem steps_cancel (transport : Transport) (c : Circumstances) (s : FlushTurns) :
    Steps transport c s.calledOff (s.cancel transport c).value.2 := by
  rw [cancel]
  cases s.pending with
  | none => exact .refl
  | some number =>
    dsimp only
    split
    · exact (steps_roundsUntil _ transport c _ s.calledOff).tail .resume
    · exact steps_pause transport c s.calledOff

/-- Who cancels learns whether the loop that was asked for last could begin, and that loop
has come to its end. -/
theorem ended_cancel (hs : s.Sound) {number : Nat} (h : s.pending = some number)
    (transport : Transport) (c : Circumstances) :
    (s.cancel transport c).value.1 = some s.isTimed ∧
      (s.cancel transport c).value.2.has number = false := by
  rw [cancel, h]
  dsimp only
  split
  · refine ⟨rfl, ?_⟩
    have hround : ∀ s : FlushTurns, s.Sound ∧ s.cancelled = true →
        (s.round transport c).value.Sound ∧ (s.round transport c).value.cancelled = true := by
      rintro s ⟨hs, hc⟩
      have hsteps := steps_round transport c s
      obtain ⟨count, hworked⟩ := Steps.worked hs hsteps
      exact ⟨hs.steps hsteps, hworked.cancelled.trans hc⟩
    have hless : ∀ s : FlushTurns, s.Sound ∧ s.cancelled = true → (!s.has number) = false →
        (s.round transport c).value.ready.length < s.ready.length := by
      rintro s ⟨hs, hc⟩ hhas
      have hready : s.ready ≠ [] := by
        intro hnil
        rw [has, hnil, hs.idle_eq_nil hc] at hhas
        cases hhas
      rw [ready_round hc, List.length_drop]
      exact Nat.sub_lt (List.length_pos_iff.2 hready) (by decide)
    have hstop := stop_roundsUntil transport c (!·.has number)
      (fun s => s.Sound ∧ s.cancelled = true) (·.ready.length) hround hless ⟨hs.calledOff, rfl⟩
      (Nat.le_refl s.calledOff.ready.length)
    rwa [Bool.not_eq_true'] at hstop
  · next hnot => exact ⟨rfl, has_of_steps hs.calledOff (Bool.eq_false_of_not_eq_true hnot)
      (steps_pause transport c s.calledOff)⟩

end FlushTurns
end SpanMetrics
