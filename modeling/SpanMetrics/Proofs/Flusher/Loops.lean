import SpanMetrics.Flusher.Loop

/-!
# When a flush is due

A loop owes a flush for every interval that has ended since it began, so what it owes
grows with the time, and a flush takes one off. A loop that never flushes before its
time and that owes nothing has flushed exactly once for every interval.
-/
namespace SpanMetrics
namespace FlushLoop

def flushed (l : FlushLoop) (count : Nat) : FlushLoop := { l with flushes := l.flushes + count }

/-- A loop that has flushed at most once for every interval that ended since it began. -/
def Punctual (l : FlushLoop) (period : Duration) (now : Nat) : Prop :=
  match l.start with
  | some start => start ≤ now ∧ l.flushes ≤ (now - start) * tick / period.nanos
  | none => l.flushes = 0

variable {l : FlushLoop} {period : Duration} {now later count : Nat}

theorem begun_of_isSome (h : l.start.isSome) (now : Nat) : l.begun now = l := by
  obtain ⟨number, start, flushes⟩ := l
  cases start with
  | none => cases h
  | some start => rfl

theorem due_flushed (l : FlushLoop) (period : Duration) (count now : Nat) :
    (l.flushed count).due period now = l.due period now - count := by
  obtain ⟨number, start, flushes⟩ := l
  cases start with
  | none => exact (Nat.zero_sub count).symm
  | some start => exact (Nat.sub_sub _ _ _).symm

theorem due_mono (l : FlushLoop) (period : Duration) (h : now ≤ later) :
    l.due period now ≤ l.due period later := by
  obtain ⟨number, start, flushes⟩ := l
  cases start with
  | none => exact Nat.le_refl 0
  | some start =>
    refine Nat.sub_le_sub_right (Nat.div_le_div_right (Nat.mul_le_mul_right _ ?_)) _
    exact Nat.sub_le_sub_right h start

/-- Nothing is due in the moment in which a loop begins. -/
theorem due_begun_of_none (h : l.start = none) (period : Duration) (now : Nat) :
    (l.begun now).due period now = 0 := by
  simp only [due, begun, h, Option.getD_none, Nat.sub_self, Nat.zero_mul, Nat.zero_div,
    Nat.zero_sub]

/-- A flush is due from the millisecond on in which the loop wakes. -/
theorem due_pos_iff (hl : l.start.isSome) (hp : 0 < period.nanos) :
    0 < l.due period now ↔ l.wake period ≤ now := by
  obtain ⟨number, start, flushes⟩ := l
  cases start with
  | none => cases hl
  | some start =>
    simp only [due, wake, Option.getD_some]
    rw [Nat.sub_pos_iff_lt, Nat.lt_iff_add_one_le, Nat.le_div_iff_mul_le hp]
    have hpos : 0 < (flushes + 1) * period.nanos := Nat.mul_pos flushes.succ_pos hp
    generalize (flushes + 1) * period.nanos = needed at hpos ⊢
    have htick : 0 < tick := by decide
    -- what falls due inside of a millisecond is noticed at its end
    have hceil : (needed + (tick - 1)) / tick ≤ now - start ↔ needed ≤ (now - start) * tick := by
      rw [← Nat.lt_succ_iff, Nat.div_lt_iff_lt_mul htick, Nat.succ_mul]
      omega
    have hfirst : 0 < (needed + (tick - 1)) / tick := Nat.div_pos (by omega) htick
    rw [← hceil]
    omega

namespace Punctual

theorem mono (hl : l.Punctual period now) (h : now ≤ later) : l.Punctual period later := by
  obtain ⟨number, start, flushes⟩ := l
  cases start with
  | none => exact hl
  | some start =>
    refine ⟨Nat.le_trans hl.1 h, Nat.le_trans hl.2 ?_⟩
    exact Nat.div_le_div_right (Nat.mul_le_mul_right _ (Nat.sub_le_sub_right h start))

theorem begun (hl : l.Punctual period now) : (l.begun now).Punctual period now := by
  obtain ⟨number, start, flushes⟩ := l
  cases start with
  | none =>
    have hflushes : flushes = 0 := hl
    exact ⟨Nat.le_refl now, hflushes ▸ Nat.zero_le _⟩
  | some start => exact hl

theorem flushed (hl : l.Punctual period now) (h : count ≤ l.due period now) :
    (l.flushed count).Punctual period now := by
  obtain ⟨number, start, flushes⟩ := l
  cases start with
  | none =>
    have hcount : count = 0 := Nat.le_zero.1 h
    subst hcount
    exact hl
  | some start =>
    refine ⟨hl.1, ?_⟩
    have hdue : count ≤ (now - start) * tick / period.nanos - flushes := h
    have hflushes := hl.2
    dsimp only [FlushLoop.flushed] at hflushes ⊢
    omega

theorem start_le {start : Nat} (hl : l.Punctual period now) (hs : l.start = some start) :
    start ≤ now := by
  obtain ⟨number, _, flushes⟩ := l
  cases hs
  exact hl.1

/-- A loop that owes nothing has flushed once for every interval. -/
theorem flushes_eq {start : Nat} (hl : l.Punctual period now) (hs : l.start = some start)
    (h : l.due period now = 0) : l.flushes = (now - start) * tick / period.nanos := by
  obtain ⟨number, _, flushes⟩ := l
  cases hs
  exact Nat.le_antisymm hl.2 (Nat.sub_eq_zero_iff_le.1 h)

end Punctual

end FlushLoop
end SpanMetrics
