import Mathlib.Algebra.BigOperators.Group.List.Basic
import Mathlib.Data.List.Perm.Basic
import Mathlib.Logic.Relation
import SpanMetrics.Flusher.Turns
import SpanMetrics.Proofs.Flusher.Calls
import SpanMetrics.Proofs.Flusher.Loops

/-!
# Steps of the loops

What happens while a caller waits, cut into steps: a loop flushes, comes to its end or
begins to wait, or time passes. The turns and rounds of a flusher are made of them, so
what every step keeps is kept by the whole. The order of the loops that are ready has no
part in it.
-/
namespace SpanMetrics

/-! ## Flushes in a row -/

namespace Flusher

/-- The flusher after so many flushes. -/
def flushed (f : Flusher) (transport : Transport) (c : Circumstances) (count : Nat) : Flusher :=
  (f.callAll transport (.replicate count (.flush c))).value.2

variable (f : Flusher) (transport : Transport) (c : Circumstances)

theorem flushed_succ (count : Nat) :
    f.flushed transport c (count + 1) =
      (f.flush transport c).value.2.flushed transport c count := rfl

theorem flushed_add (count more : Nat) :
    f.flushed transport c (count + more) =
      (f.flushed transport c count).flushed transport c more := by
  unfold flushed
  rw [List.replicate_add, value_callAll_append]

theorem interval_call (call : FlusherCall) :
    (f.call transport call).value.2.interval = f.interval := by
  cases call with
  | operate op => rfl
  | flush c => rw [value_call_flush, value_flush]

theorem interval_callAll (calls : List FlusherCall) :
    (f.callAll transport calls).value.2.interval = f.interval := by
  induction calls generalizing f with
  | nil => rfl
  | cons call calls ih => rw [value_callAll_cons, ih, interval_call]

theorem interval_flushed (count : Nat) :
    (f.flushed transport c count).interval = f.interval :=
  f.interval_callAll transport _

end Flusher

namespace FlushTurns

/-- The loops that have not come to their end. -/
def loops (s : FlushTurns) : List FlushLoop := s.ready ++ s.idle

/-- What happens while the caller waits. Only the first loop that is ready does something, and
time passes when none is ready. In the end the caller has a new turn. -/
inductive Step (transport : Transport) (c : Circumstances) : FlushTurns → FlushTurns → Prop
  | order {s : FlushTurns} {ready : List FlushLoop} (h : ready.Perm s.ready) :
      Step transport c s { s with ready }
  | fail {s : FlushTurns} {l : FlushLoop} {rest : List FlushLoop} (h : s.ready = l :: rest)
      (ht : s.isTimed = false) :
      Step transport c s { s with ready := rest }
  | finish {s : FlushTurns} {l : FlushLoop} {rest : List FlushLoop} (h : s.ready = l :: rest)
      (ht : s.isTimed = true) (hc : s.cancelled = true) :
      Step transport c s { s with
        flusher := s.flusher.flushed transport c 1
        ready := rest }
  | flush {s : FlushTurns} {l : FlushLoop} {rest : List FlushLoop} (h : s.ready = l :: rest)
      (ht : s.isTimed = true) (hc : s.cancelled = false) {count : Nat}
      (hdue : count ≤ (l.begun s.now).due s.period s.now) :
      Step transport c s { s with
        flusher := s.flusher.flushed transport c count
        ready := (l.begun s.now).flushed count :: rest }
  | wait {s : FlushTurns} {l : FlushLoop} {rest : List FlushLoop} (h : s.ready = l :: rest)
      (ht : s.isTimed = true) (hc : s.cancelled = false) (hl : l.start.isSome)
      (hdue : l.due s.period s.now = 0) :
      Step transport c s { s with
        ready := rest
        idle := s.idle ++ [l] }
  | elapse {s : FlushTurns} {now : Nat} (h : s.ready = []) (hnow : s.now ≤ now) :
      Step transport c s (s.elapse now)
  | resume {s : FlushTurns} {patience : Nat} : Step transport c s { s with patience }

abbrev Steps (transport : Transport) (c : Circumstances) : FlushTurns → FlushTurns → Prop :=
  Relation.ReflTransGen (Step transport c)

variable {transport : Transport} {c : Circumstances} {s t u : FlushTurns}

theorem period_of_interval (h : t.flusher.interval = s.flusher.interval) :
    t.period = s.period := by
  rw [period, period, h]

theorem isTimed_of_period (h : t.period = s.period) : t.isTimed = s.isTimed := by
  rw [isTimed, isTimed, h]

/-- The loops without the first one that is ready. -/
theorem sublist_loops {l : FlushLoop} {rest : List FlushLoop} (h : s.ready = l :: rest) :
    (rest ++ s.idle).Sublist s.loops := by
  rw [loops, h]
  exact List.sublist_cons_self l _

theorem perm_loops_elapse (s : FlushTurns) (now : Nat) : (s.elapse now).loops.Perm s.loops := by
  rw [loops, elapse, List.append_assoc]
  exact (List.filter_append_perm _ s.idle).append_left s.ready

theorem perm_loops_wait (l : FlushLoop) (rest idle : List FlushLoop) :
    (rest ++ (idle ++ [l])).Perm (l :: rest ++ idle) := by
  rw [← List.append_assoc]
  exact List.perm_append_singleton l (rest ++ idle)

/-! ## Loops in order -/

/-- Loops with different numbers that were given out, none of which flushed before its time. -/
structure Orderly (asked : Nat) (period : Duration) (now : Nat) (loops : List FlushLoop) :
    Prop where
  numbered : (loops.map (·.number)).Nodup
  asked : ∀ l ∈ loops, l.number < asked
  punctual : ∀ l ∈ loops, l.Punctual period now

namespace Orderly

variable {asked now later : Nat} {period : Duration} {l : FlushLoop} {rest more : List FlushLoop}

theorem perm (h : Orderly asked period now more) (hp : rest.Perm more) :
    Orderly asked period now rest :=
  ⟨(hp.map _).nodup_iff.2 h.numbered, fun l hl => h.asked l (hp.mem_iff.1 hl),
    fun l hl => h.punctual l (hp.mem_iff.1 hl)⟩

theorem tail (h : Orderly asked period now (l :: rest)) : Orderly asked period now rest :=
  ⟨h.numbered.tail, fun k hk => h.asked k (.tail l hk), fun k hk => h.punctual k (.tail l hk)⟩

theorem mono (h : Orderly asked period now rest) (hnow : now ≤ later) :
    Orderly asked period later rest :=
  ⟨h.numbered, h.asked, fun l hl => (h.punctual l hl).mono hnow⟩

theorem flush (h : Orderly asked period now (l :: rest)) {count : Nat}
    (hdue : count ≤ (l.begun now).due period now) :
    Orderly asked period now ((l.begun now).flushed count :: rest) := by
  refine ⟨h.numbered, ?_, ?_⟩
  · exact List.forall_mem_cons.2 ⟨h.asked l (.head rest), h.tail.asked⟩
  · exact List.forall_mem_cons.2
      ⟨(h.punctual l (.head rest)).begun.flushed hdue, h.tail.punctual⟩

/-- A new number belongs to no loop yet. -/
theorem ask (h : Orderly asked period now rest) :
    Orderly (asked + 1) period now (.new asked :: rest) := by
  refine ⟨?_, ?_, ?_⟩
  · refine List.nodup_cons.2 ⟨fun hmem => ?_, h.numbered⟩
    obtain ⟨l, hl, hnumber⟩ := List.mem_map.1 hmem
    exact (h.asked l hl).ne hnumber
  · exact List.forall_mem_cons.2
      ⟨Nat.lt_succ_self asked, fun l hl => (h.asked l hl).trans (Nat.lt_succ_self asked)⟩
  · exact List.forall_mem_cons.2 ⟨rfl, h.punctual⟩

end Orderly

/-- Loops in order, of which only those wait that have nothing to do, and only as long as
loops can begin and are not cancelled. -/
structure Sound (s : FlushTurns) : Prop where
  orderly : Orderly s.asked s.period s.now s.loops
  going : ∀ l ∈ s.idle, s.isTimed = true ∧ s.cancelled = false
  waiting : ∀ l ∈ s.idle, l.start.isSome ∧ l.due s.period s.now = 0

theorem sound_new (f : Flusher) : (new f).Sound :=
  ⟨⟨List.nodup_nil, List.forall_mem_nil _, List.forall_mem_nil _⟩, List.forall_mem_nil _,
    List.forall_mem_nil _⟩

theorem Step.period (h : Step transport c s t) : t.period = s.period := by
  cases h with
  | finish | flush => exact period_of_interval (Flusher.interval_flushed ..)
  | order | fail | wait | elapse | resume => rfl

theorem Step.isTimed (h : Step transport c s t) : t.isTimed = s.isTimed :=
  isTimed_of_period h.period

/-- Where the loops that wait are the same, only order has to be kept. -/
theorem Sound.of_orderly (hs : s.Sound) (hp : t.period = s.period) (hi : t.idle = s.idle)
    (hn : t.now = s.now) (hc : t.cancelled = s.cancelled)
    (h : Orderly t.asked s.period t.now t.loops) : t.Sound := by
  refine ⟨hp ▸ h, ?_, ?_⟩
  · rw [hi, isTimed_of_period hp, hc]
    exact hs.going
  · rw [hi, hp, hn]
    exact hs.waiting

theorem Sound.step (hs : s.Sound) (h : Step transport c s t) : t.Sound := by
  have hperiod := h.period
  have horderly := hs.orderly
  cases h with
  | order h => exact hs.of_orderly rfl rfl rfl rfl (horderly.perm (h.append_right s.idle))
  | fail h ht =>
    rw [loops, h] at horderly
    exact hs.of_orderly rfl rfl rfl rfl horderly.tail
  | finish h ht hc =>
    rw [loops, h] at horderly
    exact hs.of_orderly hperiod rfl rfl rfl horderly.tail
  | flush h ht hc hdue =>
    rw [loops, h] at horderly
    exact hs.of_orderly hperiod rfl rfl rfl (horderly.flush hdue)
  | wait h ht hc hl hdue =>
    rw [loops, h] at horderly
    refine ⟨horderly.perm (perm_loops_wait _ _ s.idle), fun _ _ => ⟨ht, hc⟩, fun k hk => ?_⟩
    obtain hk | hk := List.mem_append.1 hk
    · exact hs.waiting k hk
    · rw [List.mem_singleton.1 hk]
      exact ⟨hl, hdue⟩
  | @elapse now h hnow =>
    refine ⟨(horderly.mono hnow).perm (s.perm_loops_elapse _), fun l hl => ?_, fun l hl => ?_⟩
    · exact hs.going l (List.mem_filter.1 hl).1
    · obtain ⟨hl, hkept⟩ := List.mem_filter.1 hl
      have hdue : l.due s.period now = 0 := by simpa using hkept
      exact ⟨(hs.waiting l hl).1, hdue⟩
  | resume => exact hs.of_orderly rfl rfl rfl rfl horderly

theorem Sound.steps (hs : s.Sound) (h : Steps transport c s t) : t.Sound := by
  induction h with
  | refl => exact hs
  | tail _ h ih => exact ih.step h

/-! ## What the loops do -/

/-- How many flushes the loops have done. -/
def flushes (s : FlushTurns) : Nat := (s.loops.map (·.flushes)).sum

/-- How many flushes the loops have still to do until some time. -/
def owed (s : FlushTurns) (time : Nat) : Nat :=
  (s.loops.map fun l => (l.begun s.now).due s.period time).sum

/-- The loops flush so many times and do nothing else to the flusher. None flushes that cannot
begin; each that is cancelled flushes once and is gone; the others stay, and every flush is
one that was due. -/
structure Worked (transport : Transport) (c : Circumstances) (count : Nat)
    (s t : FlushTurns) : Prop where
  flusher : t.flusher = s.flusher.flushed transport c count
  asked : t.asked = s.asked
  pending : t.pending = s.pending
  cancelled : t.cancelled = s.cancelled
  now : s.now ≤ t.now
  numbers : (t.loops.map (·.number)).Subperm (s.loops.map (·.number))
  failed : s.isTimed = false → count = 0
  finished : s.isTimed = true → s.cancelled = true → count + t.loops.length = s.loops.length
  stayed : s.isTimed = true → s.cancelled = false → t.loops.length = s.loops.length
  counted : s.isTimed = true → s.cancelled = false → t.flushes = s.flushes + count
  owed : s.isTimed = true → s.cancelled = false →
    ∀ time, t.now ≤ time → count + t.owed time = s.owed time

namespace Worked

theorem isTimed {count : Nat} (h : Worked transport c count s t) : t.isTimed = s.isTimed := by
  refine isTimed_of_period (period_of_interval ?_)
  rw [h.flusher, Flusher.interval_flushed]

theorem trans {count more : Nat} (h : Worked transport c count s t)
    (k : Worked transport c more t u) : Worked transport c (count + more) s u where
  flusher := by rw [k.flusher, h.flusher, Flusher.flushed_add]
  asked := k.asked.trans h.asked
  pending := k.pending.trans h.pending
  cancelled := k.cancelled.trans h.cancelled
  now := h.now.trans k.now
  numbers := k.numbers.trans h.numbers
  failed hs := by rw [h.failed hs, k.failed (h.isTimed.trans hs)]
  finished hs hc := by
    have hfirst := h.finished hs hc
    have hrest := k.finished (h.isTimed.trans hs) (h.cancelled.trans hc)
    omega
  stayed hs hc :=
    (k.stayed (h.isTimed.trans hs) (h.cancelled.trans hc)).trans (h.stayed hs hc)
  counted hs hc := by
    rw [k.counted (h.isTimed.trans hs) (h.cancelled.trans hc), h.counted hs hc, Nat.add_assoc]
  owed hs hc time htime := by
    rw [Nat.add_assoc, k.owed (h.isTimed.trans hs) (h.cancelled.trans hc) time htime,
      h.owed hs hc time (k.now.trans htime)]

/-- Nothing is done where the loops are told apart in another way. -/
theorem of_perm (hf : t.flusher = s.flusher) (ha : t.asked = s.asked)
    (hpending : t.pending = s.pending) (hc : t.cancelled = s.cancelled) (hn : t.now = s.now)
    (hp : t.loops.Perm s.loops) : Worked transport c 0 s t where
  flusher := hf
  asked := ha
  pending := hpending
  cancelled := hc
  now := hn.ge
  numbers := (hp.map _).subperm
  failed _ := rfl
  finished _ _ := by rw [Nat.zero_add, hp.length_eq]
  stayed _ _ := hp.length_eq
  counted _ _ := (hp.map _).sum_eq
  owed _ _ time _ := by
    rw [Nat.zero_add, FlushTurns.owed, FlushTurns.owed, period, period, hf, hn]
    exact (hp.map _).sum_eq

theorem refl (s : FlushTurns) : Worked transport c 0 s s :=
  .of_perm rfl rfl rfl rfl rfl (.refl _)

end Worked

/-- Loops that have begun owe the same, whenever one asks. -/
theorem owed_eq_of_isSome (h : ∀ l ∈ s.loops, l.start.isSome) (time : Nat) :
    s.owed time = (s.loops.map fun l => l.due s.period time).sum := by
  unfold owed
  congr 1
  exact List.map_congr_left fun l hl => by rw [FlushLoop.begun_of_isSome (h l hl)]

/-- A flush that was due is owed no longer. -/
theorem owed_of_flush {l : FlushLoop} {rest : List FlushLoop} (h : s.ready = l :: rest)
    {count time : Nat} (hdue : count ≤ (l.begun s.now).due s.period s.now)
    (htime : s.now ≤ time) :
    count + owed { s with
      flusher := s.flusher.flushed transport c count
      ready := (l.begun s.now).flushed count :: rest } time = s.owed time := by
  have hperiod : period { s with
      flusher := s.flusher.flushed transport c count
      ready := (l.begun s.now).flushed count :: rest } = s.period :=
    period_of_interval (Flusher.interval_flushed ..)
  have hcount : count ≤ (l.begun s.now).due s.period time :=
    hdue.trans (FlushLoop.due_mono _ _ htime)
  have hbegun : ((l.begun s.now).flushed count).begun s.now = (l.begun s.now).flushed count := rfl
  rw [owed, owed, hperiod, loops, loops, h, List.cons_append, List.cons_append, List.map_cons,
    List.map_cons, List.sum_cons, List.sum_cons, hbegun, FlushLoop.due_flushed]
  dsimp only
  omega

theorem Step.worked (hs : s.Sound) (h : Step transport c s t) :
    ∃ count, Worked transport c count s t := by
  cases h with
  | order h => exact ⟨0, .of_perm rfl rfl rfl rfl rfl (h.append_right s.idle)⟩
  | fail h ht =>
    refine ⟨0, rfl, rfl, rfl, rfl, Nat.le_refl _, ((sublist_loops h).map _).subperm,
      fun _ => rfl, ?_, ?_, ?_, ?_⟩
    all_goals exact fun hs => absurd (hs.symm.trans ht) (by decide)
  | finish h ht hc =>
    refine ⟨1, rfl, rfl, rfl, rfl, Nat.le_refl _, ((sublist_loops h).map _).subperm,
      fun hs => ?_, fun _ _ => ?_, ?_, ?_, ?_⟩
    · exact absurd (hs.symm.trans ht) (by decide)
    · rw [loops, loops, h, List.cons_append, List.length_cons, Nat.add_comm]
    all_goals exact fun _ hs => absurd (hs.symm.trans hc) (by decide)
  | @flush l rest h ht hc count hdue =>
    refine ⟨count, rfl, rfl, rfl, rfl, Nat.le_refl _, ?_, fun hs => ?_, fun _ hs => ?_,
      fun _ _ => ?_, fun _ _ => ?_, fun _ _ time htime => owed_of_flush h hdue htime⟩
    · rw [loops, loops, h]
      exact .refl _
    · exact absurd (hs.symm.trans ht) (by decide)
    · exact absurd (hs.symm.trans hc) (by decide)
    · rw [loops, loops, h]
      rfl
    · rw [flushes, flushes, loops, loops, h, List.cons_append, List.cons_append, List.map_cons,
        List.map_cons, List.sum_cons, List.sum_cons, FlushLoop.flushed]
      dsimp only [FlushLoop.begun]
      omega
  | wait h ht hc hl hdue =>
    refine ⟨0, .of_perm rfl rfl rfl rfl rfl ?_⟩
    rw [loops, loops, h]
    exact perm_loops_wait _ _ s.idle
  | @elapse now h hnow =>
    have hloops : ∀ l ∈ s.loops, l.start.isSome := by
      rw [loops, h]
      exact fun l hl => (hs.waiting l hl).1
    have hperm := s.perm_loops_elapse now
    refine ⟨0, rfl, rfl, rfl, rfl, hnow, (hperm.map _).subperm, fun _ => rfl, fun _ _ => ?_,
      fun _ _ => hperm.length_eq, fun _ _ => (hperm.map _).sum_eq, fun _ _ time _ => ?_⟩
    · rw [Nat.zero_add, hperm.length_eq]
    · rw [Nat.zero_add, owed_eq_of_isSome hloops,
        owed_eq_of_isSome fun l hl => hloops l (hperm.mem_iff.1 hl)]
      exact (hperm.map _).sum_eq
  | resume => exact ⟨0, .of_perm rfl rfl rfl rfl rfl (.refl _)⟩

theorem Steps.worked (hs : s.Sound) (h : Steps transport c s t) :
    ∃ count, Worked transport c count s t := by
  induction h with
  | refl => exact ⟨0, .refl s⟩
  | tail hsteps h ih =>
    obtain ⟨count, hcount⟩ := ih
    obtain ⟨more, hmore⟩ := h.worked (hs.steps hsteps)
    exact ⟨count + more, hcount.trans hmore⟩

end FlushTurns
end SpanMetrics
