import SpanMetrics.Proofs.Flusher.Turns

/-!
# Whatever the caller does

A caller calls a flusher, asks for loops, sleeps and cancels, in any order. However the
turns fall, the flusher goes through a history of calls: the caller's own in their order, and
between them the flushes of the loops, so what holds of all histories of a flusher
holds here. Without cancelling, the flushes are those that the loops have counted, and a
loop that waits has counted one for every interval that ended since it began.
-/
namespace SpanMetrics

/-- What the caller of a flusher does in turn: it calls the flusher, asks for a loop, sleeps or
cancels the loops. -/
inductive FlushAction where
  | call (call : FlusherCall)
  | ask
  | sleep (circumstances : Circumstances) (millis : Nat)
  | cancel (circumstances : Circumstances)

namespace FlushAction

/-- Whether the caller may wait. -/
def waits : FlushAction → Bool
  | call _ | ask => false
  | sleep .. | cancel _ => true

/-- The calls of a flusher in an action in which the loops flush so many times. -/
def calls : FlushAction → (count : Nat) → List FlusherCall
  | call made, _ => [made]
  | ask, _ => []
  | sleep c _, count | cancel c, count => .replicate count (.flush c)

end FlushAction

namespace FlushTurns

variable {s t : FlushTurns}

def act (s : FlushTurns) (transport : Transport) : FlushAction → Logged FlushTurns
  | .call call => do
    let (_, flusher) ← s.flusher.call transport call
    return { s with flusher }
  | .ask => return s.ask
  | .sleep c millis => s.sleep transport c millis
  | .cancel c => do
    let (_, s) ← s.cancel transport c
    return s

def actAll (transport : Transport) : FlushTurns → List FlushAction → Logged FlushTurns
  | s, [] => return s
  | s, action :: rest => do actAll transport (← s.act transport action) rest

/-- In an action the loops flush so many times, and nobody else does anything to the flusher but
the caller. They flush only while the caller waits. Time does not go back, and cancelling is for
good. Unless they are cancelled, the loops keep count of their flushes; those that are cancelled
flush once each and are gone. -/
structure Acted (transport : Transport) (action : FlushAction) (count : Nat)
    (s t : FlushTurns) : Prop where
  waits : action.waits = false → count = 0
  flusher : t.flusher = (s.flusher.callAll transport (action.calls count)).value.2
  now : s.now ≤ t.now
  asked : s.asked ≤ t.asked
  cancelled : s.cancelled = true → t.cancelled = true
  counted : s.isTimed = true → t.cancelled = false → t.flushes = s.flushes + count
  finished : s.isTimed = true → s.cancelled = true →
    count + t.loops.length = s.loops.length + (t.asked - s.asked)

theorem perm_loops_ask (s : FlushTurns) : s.ask.loops.Perm (.new s.asked :: s.loops) := by
  rw [loops, ask, List.append_assoc]
  exact List.perm_middle

theorem perm_loops_calledOff (s : FlushTurns) : s.calledOff.loops.Perm s.loops := by
  rw [loops, calledOff, List.append_nil]
  exact .refl _

theorem Sound.act (hs : s.Sound) (transport : Transport) (action : FlushAction) :
    (s.act transport action).value.Sound := by
  cases action with
  | call call =>
    exact hs.of_orderly (period_of_interval (s.flusher.interval_call transport call)) rfl rfl rfl
      hs.orderly
  | ask => exact hs.of_orderly rfl rfl rfl rfl (hs.orderly.ask.perm s.perm_loops_ask)
  | sleep c millis => exact hs.steps (slept_sleep hs transport c millis).steps
  | cancel c => exact hs.calledOff.steps (steps_cancel transport c s)

theorem acted_act (hs : s.Sound) (transport : Transport) (action : FlushAction) :
    ∃ count, Acted transport action count s (s.act transport action).value := by
  cases action with
  | call call =>
    refine ⟨0, fun _ => rfl, rfl, Nat.le_refl _, Nat.le_refl _, id, fun _ _ => rfl,
      fun _ _ => ?_⟩
    change 0 + s.loops.length = s.loops.length + (s.asked - s.asked)
    omega
  | ask =>
    have hperm := s.perm_loops_ask
    refine ⟨0, fun _ => rfl, rfl, Nat.le_refl _, Nat.le_succ _, id, fun _ _ => ?_,
      fun _ _ => ?_⟩
    · exact (hperm.map (·.flushes)).sum_eq.trans (Nat.zero_add _)
    · have hlength : s.ask.loops.length = s.loops.length + 1 := hperm.length_eq
      change 0 + s.ask.loops.length = s.loops.length + (s.asked + 1 - s.asked)
      omega
  | sleep c millis =>
    obtain ⟨count, hworked⟩ := Steps.worked hs (slept_sleep hs transport c millis).steps
    refine ⟨count, nofun, hworked.flusher, hworked.now, hworked.asked.ge,
      hworked.cancelled.trans, fun ht hc => ?_, fun ht hc => ?_⟩
    · exact hworked.counted ht (hworked.cancelled.symm.trans hc)
    · have hasked : (s.act transport (.sleep c millis)).value.asked = s.asked := hworked.asked
      rw [hasked, Nat.sub_self]
      exact hworked.finished ht hc
  | cancel c =>
    obtain ⟨count, hworked⟩ := Steps.worked hs.calledOff (steps_cancel transport c s)
    refine ⟨count, nofun, hworked.flusher, hworked.now, hworked.asked.ge,
      fun _ => hworked.cancelled, fun _ hc => ?_, fun ht _ => ?_⟩
    · cases hworked.cancelled.symm.trans hc
    · have hasked : (s.act transport (.cancel c)).value.asked = s.asked := hworked.asked
      rw [hasked, Nat.sub_self]
      exact (hworked.finished ht rfl).trans s.perm_loops_calledOff.length_eq

/-- Any number of actions, in each of which the loops flush some number of times. The calls of the
flusher are those of the actions in order. -/
structure ActedAll (transport : Transport) (actions : List FlushAction) (counts : List Nat)
    (s t : FlushTurns) : Prop where
  waits : List.Forall₂ (fun action count => action.waits = false → count = 0) actions counts
  flusher : t.flusher =
    (s.flusher.callAll transport (actions.zipWith FlushAction.calls counts).flatten).value.2
  now : s.now ≤ t.now
  asked : s.asked ≤ t.asked
  cancelled : s.cancelled = true → t.cancelled = true
  counted : s.isTimed = true → t.cancelled = false → t.flushes = s.flushes + counts.sum

theorem sound_actAll (hs : s.Sound) (transport : Transport) (actions : List FlushAction) :
    (s.actAll transport actions).value.Sound := by
  induction actions generalizing s with
  | nil => exact hs
  | cons action actions ih => exact ih (hs.act transport action)

theorem Acted.isTimed {transport : Transport} {action : FlushAction} {count : Nat}
    (h : Acted transport action count s t) : t.isTimed = s.isTimed := by
  refine isTimed_of_period (period_of_interval ?_)
  rw [h.flusher, Flusher.interval_callAll]

/-- One more action before the others. -/
theorem ActedAll.cons {transport : Transport} {action : FlushAction} {actions : List FlushAction}
    {count : Nat} {counts : List Nat} {u : FlushTurns} (h : Acted transport action count s t)
    (k : ActedAll transport actions counts t u) :
    ActedAll transport (action :: actions) (count :: counts) s u where
  waits := .cons h.waits k.waits
  flusher := by
    rw [k.flusher, h.flusher, List.zipWith_cons_cons, List.flatten_cons,
      Flusher.value_callAll_append]
  now := h.now.trans k.now
  asked := h.asked.trans k.asked
  cancelled hc := k.cancelled (h.cancelled hc)
  counted ht hc := by
    have hbefore : t.cancelled = false :=
      Bool.eq_false_of_not_eq_true fun htrue => by cases (k.cancelled htrue).symm.trans hc
    rw [k.counted (h.isTimed.trans ht) hc, h.counted ht hbefore, List.sum_cons, Nat.add_assoc]

theorem actedAll_actAll (hs : s.Sound) (transport : Transport) (actions : List FlushAction) :
    ∃ counts, ActedAll transport actions counts s (s.actAll transport actions).value := by
  induction actions generalizing s with
  | nil => exact ⟨[], .nil, rfl, Nat.le_refl _, Nat.le_refl _, id, fun _ _ => rfl⟩
  | cons action actions ih =>
    obtain ⟨count, hfirst⟩ := acted_act hs transport action
    obtain ⟨counts, hrest⟩ := ih (hs.act transport action)
    exact ⟨count :: counts, .cons hfirst hrest⟩

/-- From its start on a flusher with loops goes through the calls of its caller and the flushes
that the loops do while the caller waits. As long as nobody cancels, these are as many as the
loops have counted, and a loop that waits has counted one for every interval that ended since
it began. -/
theorem calls_of_actions (f : Flusher) (transport : Transport) (actions : List FlushAction) :
    let t := ((new f).actAll transport actions).value
    t.Sound ∧
    (∃ counts : List Nat,
      List.Forall₂ (fun action count => action.waits = false → count = 0) actions counts ∧
      t.flusher =
        (f.callAll transport (actions.zipWith FlushAction.calls counts).flatten).value.2 ∧
      ((new f).isTimed = true → t.cancelled = false →
        (t.loops.map (·.flushes)).sum = counts.sum)) ∧
    ∀ l ∈ t.idle, ∃ start, l.start = some start ∧ start ≤ t.now ∧
      l.flushes =
        (t.now - start) * FlushLoop.tick / (FlushLoop.period f.interval).nanos := by
  intro t
  have hsound : t.Sound := sound_actAll (sound_new f) transport actions
  obtain ⟨counts, h⟩ := actedAll_actAll (sound_new f) transport actions
  refine ⟨hsound, ⟨counts, h.waits, h.flusher, fun ht hc => ?_⟩, fun l hl => ?_⟩
  · exact (h.counted ht hc).trans (Nat.zero_add _)
  · obtain ⟨hbegun, hdue⟩ := hsound.waiting l hl
    obtain ⟨start, hstart⟩ := Option.isSome_iff_exists.1 hbegun
    have hpunctual := hsound.orderly.punctual l (List.mem_append_right _ hl)
    have hperiod : t.period = (new f).period := by
      refine period_of_interval ?_
      rw [h.flusher, Flusher.interval_callAll]
    rw [hperiod] at hdue hpunctual
    exact ⟨start, hstart, hpunctual.start_le hstart, hpunctual.flushes_eq hstart hdue⟩

end FlushTurns
end SpanMetrics
