import Mathlib
import SpanMetrics.Deflate.Bits

/-!
# Reading back bits

A number of fixed width is read back from its bits, whatever follows them, and a stream of bits is
read back from its bytes up to the zero bits that fill the last one.
-/
namespace SpanMetrics.Deflate.Bits

theorem value_low {width n : Nat} (h : n < 2 ^ width) : value (low width n) = n := by
  induction width generalizing n with
  | zero => simp at h; simp [low, value, h]
  | succ width ih =>
    have hd : n / 2 < 2 ^ width := by rw [Nat.pow_succ] at h; omega
    have hb : (n % 2 == 1).toNat = n % 2 := by
      rcases Nat.mod_two_eq_zero_or_one n with h | h <;> simp [h]
    simp only [low, value, ih hd, hb]
    omega

theorem read?_low {width n : Nat} (h : n < 2 ^ width) (rest : Bits) :
    read? width (low width n ++ rest) = some (n, rest) := by
  have hr := read?_append (low width n) rest
  rwa [length_low, value_low h] at hr

theorem value_lt (bits : Bits) : value bits < 2 ^ bits.length := by
  induction bits with
  | nil => simp [value]
  | cons b rest ih =>
    have hb := b.toNat_le
    simp only [value, List.length_cons, Nat.pow_succ]
    omega

theorem low_value (width : Nat) (bits : Bits) (h : bits.length ≤ width) :
    low width (value bits) = bits ++ List.replicate (width - bits.length) false := by
  induction bits generalizing width with
  | nil =>
    induction width with
    | zero => rfl
    | succ width ih => simpa [low, value, List.replicate_succ] using ih (Nat.zero_le _)
  | cons b rest ih =>
    cases width with
    | zero => simp at h
    | succ width =>
      have hd : (b.toNat + 2 * value rest) / 2 = value rest := by cases b <;> (simp; try omega)
      have hm : ((b.toNat + 2 * value rest) % 2 == 1) = b := by cases b <;> simp
      simp only [low, value, hd, hm, ih width (Nat.le_of_succ_le_succ h), List.length_cons,
        List.cons_append, Nat.succ_sub_succ_eq_sub]

theorem toNat_ofNat_value (bits : Bits) (h : bits.length ≤ 8) :
    (UInt8.ofNat (value bits)).toNat = value bits := by
  have hv := value_lt bits
  have hp : 2 ^ bits.length ≤ 2 ^ 8 := Nat.pow_le_pow_right (by decide) h
  simp only [UInt8.toNat_ofNat']
  omega

@[simp] theorem ofBytes_nil : ofBytes [] = [] := rfl

@[simp] theorem ofBytes_cons (b : UInt8) (rest : Bytes) :
    ofBytes (b :: rest) = low 8 b.toNat ++ ofBytes rest := rfl

@[simp] theorem ofBytes_append (left right : Bytes) :
    ofBytes (left ++ right) = ofBytes left ++ ofBytes right := by simp [ofBytes]

@[simp] theorem length_ofBytes (bytes : Bytes) : (ofBytes bytes).length = 8 * bytes.length := by
  induction bytes with
  | nil => rfl
  | cons b rest ih => simp [ih]; omega

/-- Packing fills up with zero bits to a whole number of bytes. -/
theorem ofBytes_toBytes (bits : Bits) :
    ∃ n < 8, ofBytes (toBytes bits) = bits ++ List.replicate n false := by
  fun_induction toBytes bits with
  | case1 => exact ⟨0, by simp⟩
  | case2 a b c d e f g h rest ih =>
    obtain ⟨n, hn, hr⟩ := ih
    refine ⟨n, hn, ?_⟩
    have hv := toNat_ofNat_value [a, b, c, d, e, f, g, h] (by simp)
    have hl := low_value 8 [a, b, c, d, e, f, g, h] (by simp)
    rw [ofBytes_cons, hv, hl, hr]
    simp
  | case3 short hne hlong =>
    have hs : short.length < 8 := by
      by_contra hc
      rcases short with _ | ⟨a, _ | ⟨b, _ | ⟨c, _ | ⟨d, _ | ⟨e, _ | ⟨f, _ | ⟨g, _ | ⟨h, rest⟩⟩⟩⟩⟩⟩⟩⟩ <;>
        simp only [List.length_cons, List.length_nil] at hc
      all_goals first
        | omega
        | exact hlong _ _ _ _ _ _ _ _ _ rfl
    have hpos : 0 < short.length := List.length_pos_iff.2 (by simpa using hne)
    refine ⟨8 - short.length, by omega, ?_⟩
    rw [ofBytes_cons, toNat_ofNat_value short (by omega), low_value 8 short (by omega)]
    simp

theorem length_toBytes_le (bits : Bits) : 8 * (toBytes bits).length ≤ bits.length + 7 := by
  obtain ⟨n, hn, h⟩ := ofBytes_toBytes bits
  have hl := congrArg List.length h
  rw [length_ofBytes, List.length_append, List.length_replicate] at hl
  omega

theorem low_mod (width n : Nat) : low width (n % 2 ^ width) = low width n := by
  induction width generalizing n with
  | zero => rfl
  | succ width ih =>
    have hd : n % 2 ^ (width + 1) / 2 = n / 2 % 2 ^ width := by
      rw [Nat.pow_succ, Nat.mul_comm, Nat.mod_mul_right_div_self]
    have hm : n % 2 ^ (width + 1) % 2 = n % 2 :=
      Nat.mod_mod_of_dvd n (dvd_pow_self 2 (Nat.succ_ne_zero width))
    rw [low, low, hd, hm, ih]

theorem low_add (left right n : Nat) :
    low (left + right) n = low left n ++ low right (n / 2 ^ left) := by
  induction left generalizing n with
  | zero => simp [low]
  | succ left ih =>
    have hd : n / 2 / 2 ^ left = n / 2 ^ (left + 1) := by
      rw [Nat.div_div_eq_div_mul, Nat.pow_succ, Nat.mul_comm]
    rw [Nat.add_right_comm, low, ih, hd]
    rfl

/-- One more bit of a number is one more bit that is set. -/
theorem low_or_two_pow (width n place : Nat) :
    low width (n ||| 2 ^ place) = (low width n).set place true := by
  induction width generalizing n place with
  | zero => rfl
  | succ width ih =>
    cases place with
    | zero =>
      have hd : (n ||| 2 ^ 0) / 2 = n / 2 := by simp [Nat.or_div_two]
      have hm : (n ||| 2 ^ 0) % 2 = 1 := by simp [Nat.or_mod_two_eq_one]
      rw [low, low, hd, hm]
      rfl
    | succ place =>
      have hd : (n ||| 2 ^ (place + 1)) / 2 = n / 2 ||| 2 ^ place := by
        rw [Nat.or_div_two, Nat.pow_succ, Nat.mul_div_cancel _ (by decide)]
      have hm : (n ||| 2 ^ (place + 1)) % 2 = n % 2 := by
        have hp : 2 ^ (place + 1) % 2 ^ 1 = 0 := by simp [Nat.pow_succ]
        have ho := Nat.or_mod_two_pow (n := 1) (a := n) (b := 2 ^ (place + 1))
        rwa [hp, Nat.or_zero, Nat.pow_one] at ho
      rw [low, low, hd, hm, ih]
      rfl

/-- The bytes of a number hold its bits. -/
theorem ofBytes_littleEndian (width n : Nat) :
    ofBytes (Bytes.littleEndian width n) = low (8 * width) n := by
  induction width generalizing n with
  | zero => rfl
  | succ width ih =>
    rw [Bytes.littleEndian, ofBytes_cons, ih, UInt8.toNat_ofNat', low_mod, Nat.mul_succ,
      Nat.add_comm, low_add]
    rfl

theorem toBytes_low_append (n : Nat) (rest : Bits) :
    toBytes (low 8 n ++ rest) = .ofNat (value (low 8 n)) :: toBytes rest := rfl

/-- Whole bytes are packed as they were. -/
theorem toBytes_ofBytes (bytes : Bytes) : toBytes (ofBytes bytes) = bytes := by
  induction bytes with
  | nil => rfl
  | cons b rest ih =>
    rw [ofBytes_cons, toBytes_low_append, value_low b.toNat_lt, ih, UInt8.ofNat_toNat]

/-- What fills a byte up is skipped. -/
theorem align_append {fill rest : Bits} (hf : fill.length < 8) (hr : rest.length % 8 = 0) :
    align (fill ++ rest) = rest := by
  have hm : (fill ++ rest).length % 8 = fill.length := by
    rw [List.length_append]
    omega
  rw [align, hm, List.drop_left]

end SpanMetrics.Deflate.Bits
