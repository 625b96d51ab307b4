import Mathlib
import SpanMetrics.Histogram.Place

/-!
# Buckets

The values of a slot. A slot is a shift and a place among the values told apart one by
one, and the place is in the upper half as soon as there is a shift; this settles both
of them. So a value falls into a slot exactly if it lies between the ends of the slot's
bucket: buckets never meet, and every value is in one. A bucket with more than one value
starts with the upper half of the places, which makes it narrow against its values.
-/
namespace SpanMetrics.Histogram

/-- Whether a value lies between the ends of a bucket. -/
def Inside (bucket : Nat × Nat) (value : Nat) : Prop := bucket.1 ≤ value ∧ value ≤ bucket.2

instance (bucket : Nat × Nat) (value : Nat) : Decidable (Inside bucket value) :=
  inferInstanceAs (Decidable (_ ∧ _))

theorem halfBits_le (p : Precision) : halfBits p ≤ 17 := by
  revert p
  decide +kernel

/-- A slot taken apart. -/
structure Splits (p : Precision) (s shift place : Nat) : Prop where
  slot_eq : s = shift * 2 ^ halfBits p + place
  place_lt : place < 2 * 2 ^ halfBits p
  le_place : 0 < shift → 2 ^ halfBits p ≤ place

variable {p : Precision} {s shift place : Nat}

theorem Splits.shift_le {shift' place' : Nat} (h : Splits p s shift place)
    (h' : Splits p s shift' place') : shift ≤ shift' := by
  by_contra hlt
  have hm := Nat.mul_le_mul_right (2 ^ halfBits p) (Nat.lt_of_not_le hlt)
  rw [Nat.succ_mul] at hm
  have hs := h.slot_eq
  have hs' := h'.slot_eq
  have hp := h.le_place (by omega)
  have hp' := h'.place_lt
  omega

theorem Splits.unique {shift' place' : Nat} (h : Splits p s shift place)
    (h' : Splits p s shift' place') : shift = shift' ∧ place = place' := by
  obtain rfl := le_antisymm (h.shift_le h') (h'.shift_le h)
  have hs := h.slot_eq
  have hs' := h'.slot_eq
  exact ⟨rfl, by omega⟩

theorem splits_slotScale (p : Precision) (s : Nat) :
    Splits p s (slotScale p s) (s - slotScale p s * 2 ^ halfBits p) := by
  have hd := Nat.div_add_mod' s (2 ^ halfBits p)
  have hm := Nat.mod_lt s (Nat.two_pow_pos (halfBits p))
  rw [slotScale, Nat.shiftRight_eq_div_pow]
  generalize s / 2 ^ halfBits p = group at hd
  cases group with
  | zero =>
    rw [Nat.zero_mul] at hd
    rw [Nat.zero_sub, Nat.zero_mul]
    constructor <;> omega
  | succ group =>
    rw [Nat.succ_mul] at hd
    rw [Nat.add_sub_cancel]
    constructor <;> omega

theorem splits_slot (p : Precision) (value : Nat) :
    Splits p (slot p value) (scale p value) (value / 2 ^ scale p value) := by
  refine ⟨?_, ?_, fun hpos => ?_⟩
  · rw [slot, Nat.shiftLeft_eq, Nat.shiftRight_eq_div_pow]
  · have hv : value < 2 ^ (Nat.log2 value + 1) := Nat.lt_log2_self
    rw [Nat.div_lt_iff_lt_mul (Nat.two_pow_pos _), ← Nat.pow_succ', ← Nat.pow_add]
    refine lt_of_lt_of_le hv (Nat.pow_le_pow_right (by decide) ?_)
    unfold scale
    omega
  · unfold scale at hpos ⊢
    have h0 : value ≠ 0 := by
      rintro rfl
      rw [Nat.log2_zero] at hpos
      omega
    rw [Nat.le_div_iff_mul_le (Nat.two_pow_pos _), ← Nat.pow_add,
      Nat.add_sub_cancel' (by omega)]
    exact Nat.log2_self_le h0

/-- The slots with `k` powers of two above the values told apart one by one hold the
values below the next power. -/
theorem slot_lt_iff (p : Precision) (value k : Nat) :
    slot p value < (k + 2) <<< halfBits p ↔ value < 2 ^ (halfBits p + k + 1) := by
  have hsplit := splits_slot p value
  have hs := hsplit.slot_eq
  have hplace := hsplit.place_lt
  have hpos := Nat.two_pow_pos (scale p value)
  rw [Nat.shiftLeft_eq, Nat.add_mul]
  constructor
  · intro hlt
    have hk : scale p value ≤ k := by
      by_contra hk
      have hm := Nat.mul_le_mul_right (2 ^ halfBits p) (Nat.lt_of_not_le hk)
      have hle := hsplit.le_place (by omega)
      rw [Nat.succ_mul] at hm
      omega
    rw [Nat.div_lt_iff_lt_mul hpos, ← Nat.pow_succ', ← Nat.pow_add] at hplace
    exact lt_of_lt_of_le hplace (Nat.pow_le_pow_right (by decide) (by omega))
  · intro hlt
    have hk : scale p value ≤ k := by
      by_contra hk
      have hle := hsplit.le_place (by omega)
      rw [Nat.le_div_iff_mul_le hpos, ← Nat.pow_add] at hle
      have hpow : 2 ^ (halfBits p + k + 1) ≤ 2 ^ (halfBits p + scale p value) :=
        Nat.pow_le_pow_right (by decide) (by omega)
      omega
    have hm := Nat.mul_le_mul_right (2 ^ halfBits p) hk
    omega

theorem bucket_of_splits (h : Splits p s shift place) :
    bucket p s = (place * 2 ^ shift, place * 2 ^ shift + 2 ^ shift - 1) := by
  obtain ⟨hs, hp⟩ := (splits_slotScale p s).unique h
  rw [bucket, Nat.shiftLeft_eq, Nat.shiftLeft_eq, Nat.shiftLeft_eq, hp, hs, Nat.one_mul]

theorem inside_bucket_iff (h : Splits p s shift place) (value : Nat) :
    Inside (bucket p s) value ↔ value / 2 ^ shift = place := by
  have hpos := Nat.two_pow_pos shift
  rw [bucket_of_splits h, Inside, Nat.div_eq_iff hpos]

/-- A place and a shift are found again from each of their values. -/
theorem scale_eq (h : Splits p s shift place) {value : Nat} (hv : value / 2 ^ shift = place) :
    scale p value = shift := by
  have hpos := Nat.two_pow_pos shift
  have hlt : value < 2 ^ (halfBits p + shift + 1) := by
    have hp := h.place_lt
    rw [← hv, Nat.div_lt_iff_lt_mul hpos, ← Nat.pow_succ', ← Nat.pow_add] at hp
    refine lt_of_lt_of_eq hp (congrArg _ ?_)
    omega
  unfold scale
  rcases Nat.eq_zero_or_pos shift with rfl | hs
  · by_cases h0 : value = 0
    · rw [h0, Nat.log2_zero, Nat.zero_sub]
    · have hl := (Nat.log2_lt h0).2 hlt
      omega
  · have hle : 2 ^ (halfBits p + shift) ≤ value := by
      have hp := h.le_place hs
      rwa [← hv, Nat.le_div_iff_mul_le hpos, ← Nat.pow_add] at hp
    have hne : value ≠ 0 := (lt_of_lt_of_le (Nat.two_pow_pos _) hle).ne'
    rw [(Nat.log2_eq_iff hne).2 ⟨hle, hlt⟩]
    omega

/-- The values of a slot are those between the ends of its bucket. -/
theorem slot_eq_iff (p : Precision) (s value : Nat) :
    slot p value = s ↔ Inside (bucket p s) value := by
  constructor
  · rintro rfl
    exact (inside_bucket_iff (splits_slot p value) value).2 rfl
  · intro hi
    have hs := splits_slotScale p s
    have hv := (inside_bucket_iff hs value).1 hi
    rw [(splits_slot p value).slot_eq, scale_eq hs hv, hv]
    exact hs.slot_eq.symm

/-- Buckets of different slots have no value in common. -/
theorem not_inside_of_ne {t : Nat} (h : s ≠ t) {value : Nat} (hs : Inside (bucket p s) value) :
    ¬Inside (bucket p t) value := by
  rw [← slot_eq_iff] at hs ⊢
  rintro rfl
  exact h hs.symm

theorem ten_pow_le (p : Precision) : 10 ^ p.val ≤ 2 ^ halfBits p := by
  revert p
  decide +kernel

/-- A bucket has one value, or its width is at most the part of its first value that the
figures of the precision allow. -/
theorem bucket_narrow (p : Precision) (s : Nat) :
    (bucket p s).2 = (bucket p s).1 ∨
      ((bucket p s).2 - (bucket p s).1 + 1) * 10 ^ p.val ≤ (bucket p s).1 := by
  have hs := splits_slotScale p s
  have hpos := Nat.two_pow_pos (slotScale p s)
  rw [bucket_of_splits hs]
  dsimp only
  rcases Nat.eq_zero_or_pos (slotScale p s) with hz | hz
  · rw [hz]
    exact .inl rfl
  · right
    have hwidth : ∀ first, first + 2 ^ slotScale p s - 1 - first + 1 = 2 ^ slotScale p s := by
      intro first
      omega
    rw [hwidth, Nat.mul_comm]
    exact Nat.mul_le_mul_right _ ((ten_pow_le p).trans (hs.le_place hz))

/-! ## Leading zeros -/

theorem clz_eq {value : BitVec 64} (h : value ≠ 0#64) :
    value.clz.toNat = 63 - Nat.log2 value.toNat := by
  have h0 : value.toNat ≠ 0 := fun hz => h (BitVec.eq_of_toNat_eq hz)
  have hl := (Nat.le_log2 h0).2 (BitVec.two_pow_sub_clz_le_toNat_of_ne_zero (by decide) h)
  have hu : Nat.log2 value.toNat < 64 - value.clz.toNat :=
    (Nat.log2_lt h0).2 BitVec.toNat_lt_two_pow_sub_clz
  omega

/-- Setting the low bits of a value raises its highest bit to the highest of them. -/
theorem log2_or_low (value bits : Nat) :
    Nat.log2 (value ||| (2 ^ (bits + 1) - 1)) = max (Nat.log2 value) bits := by
  have hpos := Nat.two_pow_pos bits
  have hlow : 2 ^ bits ≤ 2 ^ (bits + 1) - 1 := by
    rw [Nat.pow_succ]
    omega
  have hne : value ||| (2 ^ (bits + 1) - 1) ≠ 0 :=
    (lt_of_lt_of_le hpos (hlow.trans Nat.right_le_or)).ne'
  rw [Nat.log2_eq_iff hne]
  constructor
  · rcases Nat.le_total (Nat.log2 value) bits with hm | hm
    · rw [max_eq_right hm]
      exact hlow.trans Nat.right_le_or
    · rw [max_eq_left hm]
      by_cases h0 : value = 0
      · subst h0
        exact Nat.one_le_iff_ne_zero.2 hne
      · exact (Nat.log2_self_le h0).trans Nat.left_le_or
  · refine Nat.or_lt_two_pow ?_ ?_
    · exact lt_of_lt_of_le Nat.lt_log2_self
        (Nat.pow_le_pow_right (by decide) (Nat.succ_le_succ (le_max_left _ _)))
    · refine lt_of_lt_of_le (Nat.sub_lt (Nat.two_pow_pos _) (by decide))
        (Nat.pow_le_pow_right (by decide) (Nat.succ_le_succ (le_max_right _ _)))

theorem excess_eq (p : Precision) (value : BitVec 64) :
    excess p value = scale p value.toNat := by
  have hh := halfBits_le p
  have hmask : (BitVec.ofNat 64 ((2 <<< halfBits p) - 1)).toNat = 2 ^ (halfBits p + 1) - 1 := by
    have hle : 2 ^ (halfBits p + 1) ≤ 2 ^ 18 := Nat.pow_le_pow_right (by decide) (by omega)
    rw [BitVec.toNat_ofNat, Nat.shiftLeft_eq, ← Nat.pow_succ', Nat.mod_eq_of_lt (by omega)]
  have hlog := log2_or_low value.toNat (halfBits p)
  rw [← hmask, ← BitVec.toNat_or] at hlog
  have hne : value ||| BitVec.ofNat 64 ((2 <<< halfBits p) - 1) ≠ 0#64 := by
    intro hz
    have hpos := Nat.two_pow_pos (halfBits p)
    have hlow := Nat.right_le_or (n := value.toNat) (m := 2 ^ (halfBits p + 1) - 1)
    rw [← hmask, ← BitVec.toNat_or, hz, hmask, Nat.pow_succ, BitVec.toNat_zero] at hlow
    omega
  have hbound : Nat.log2 value.toNat < 64 := by
    by_cases h0 : value.toNat = 0
    · rw [h0]
      decide
    · exact (Nat.log2_lt h0).2 value.isLt
  rw [excess, clz_eq hne, hlog, scale]
  omega

/-- The computed slot is the slot of the layout. -/
theorem place_eq_slot (p : Precision) (value : BitVec 64) :
    Histogram.place p value = slot p value.toNat := by
  rw [Histogram.place, slot, excess_eq, BitVec.toNat_ushiftRight, Nat.shiftLeft_eq,
    Nat.shiftLeft_eq, Nat.shiftLeft_eq, Nat.succ_mul, Nat.one_mul, Nat.add_right_comm,
    Nat.add_sub_cancel]

end SpanMetrics.Histogram
