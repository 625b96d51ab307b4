import Mathlib
import SpanMetrics.Bytes.Base64
import SpanMetrics.Bytes.Varint

/-!
# Reading back bytes

What is written at a width or as a variable-length integer is read back, whatever follows it,
provided that it fits. Nothing is said of numbers that do not fit. Base64 text is read back as the
bytes that it was made of.
-/
namespace SpanMetrics.Bytes

theorem ofLittleEndian_littleEndian {width n : Nat} (h : n < 256 ^ width) :
    ofLittleEndian (littleEndian width n) = n := by
  induction width generalizing n with
  | zero => simp at h; simp [littleEndian, ofLittleEndian, h]
  | succ width ih =>
    have hd : n / 256 < 256 ^ width := by
      rw [Nat.div_lt_iff_lt_mul (by decide)]
      simpa [Nat.pow_succ] using h
    simp only [littleEndian, ofLittleEndian, ih hd, UInt8.toNat_ofNat']
    omega

theorem ofBigEndian_bigEndian {width n : Nat} (h : n < 256 ^ width) :
    ofBigEndian (bigEndian width n) = n := by
  simp [ofBigEndian, bigEndian, ofLittleEndian_littleEndian h]

theorem readLittle?_append {width n : Nat} (h : n < 256 ^ width) (rest : Bytes) :
    readLittle? width (littleEndian width n ++ rest) = some (n, rest) := by
  have hs := split?_append (littleEndian width n) rest
  rw [length_littleEndian] at hs
  simp [readLittle?, hs, ofLittleEndian_littleEndian h]

theorem readBig?_append {width n : Nat} (h : n < 256 ^ width) (rest : Bytes) :
    readBig? width (bigEndian width n ++ rest) = some (n, rest) := by
  have hs := split?_append (bigEndian width n) rest
  rw [length_bigEndian] at hs
  simp [readBig?, hs, ofBigEndian_bigEndian h]

theorem ofLittleEndian_lt (bytes : Bytes) : ofLittleEndian bytes < 256 ^ bytes.length := by
  induction bytes with
  | nil => exact Nat.one_pos
  | cons b rest ih =>
    have hb := b.toNat_lt
    rw [ofLittleEndian, List.length_cons, Nat.pow_succ]
    omega

theorem of_split? {count : Nat} {bytes left right : Bytes}
    (h : split? count bytes = some (left, right)) :
    left.length = count ∧ bytes = left ++ right := by
  rw [split?] at h
  split at h
  · next hle =>
    rw [List.splitAt_eq] at h
    obtain ⟨rfl, rfl⟩ := Prod.mk.inj (Option.some.inj h)
    exact ⟨List.length_take_of_le hle, (List.take_append_drop count bytes).symm⟩
  · cases h

theorem readLittle?_lt {width n : Nat} {bytes rest : Bytes}
    (h : readLittle? width bytes = some (n, rest)) : n < 256 ^ width := by
  rw [readLittle?, Option.map_eq_some_iff] at h
  obtain ⟨⟨word, more⟩, hs, he⟩ := h
  obtain ⟨rfl, -⟩ := Prod.mk.inj he
  rw [← (of_split? hs).1]
  exact ofLittleEndian_lt word

namespace Varint

theorem decodeGroups?_encodeGroups {short n : Nat} (h : n < 128 ^ short * 256) (rest : Bytes) :
    decodeGroups? short (encodeGroups short n ++ rest) = some (n, rest) := by
  induction short generalizing n with
  | zero =>
    simp only [Nat.pow_zero, Nat.one_mul] at h
    simp [encodeGroups, decodeGroups?, Nat.mod_eq_of_lt h]
  | succ short ih =>
    simp only [encodeGroups]
    split
    · next hn =>
      have h' : n % 256 = n := Nat.mod_eq_of_lt (by omega)
      simp [decodeGroups?, h', hn]
    · have hd : n / 128 < 128 ^ short * 256 := by
        rw [Nat.div_lt_iff_lt_mul (by decide)]
        rw [Nat.pow_succ] at h
        omega
      have hb : (n % 128 + 128) % 256 = n % 128 + 128 := Nat.mod_eq_of_lt (by omega)
      simp only [List.cons_append, decodeGroups?, UInt8.toNat_ofNat', ih hd, hb]
      rw [if_neg (by omega)]
      simp
      omega

theorem decode?_encode {n : Int} (hl : -(2 ^ 63) ≤ n) (hu : n < 2 ^ 63) (rest : Bytes) :
    decode? (encode n ++ rest) = some (n, rest) := by
  have h : zigzag n < 128 ^ 8 * 256 := by
    simp only [zigzag]
    split <;> omega
  simp [decode?, encode, decodeGroups?_encodeGroups h, unzigzag_zigzag]

end Varint

namespace Base64

theorem value?_digit {n : Nat} (h : n < 64) : value? (digit n) = some n := by
  have hall : ∀ i : Fin 64, value? (digit i.val) = some i.val := by decide +kernel
  exact hall ⟨n, h⟩

theorem digit_ne_padding {n : Nat} (h : n < 64) : digit n ≠ '=' := by
  have hall : ∀ i : Fin 64, digit i.val ≠ '=' := by decide +kernel
  exact hall ⟨n, h⟩

theorem group?_one (a : UInt8) :
    group? (digit (a.toNat / 4)) (digit (a.toNat % 4 * 16)) '=' '=' = some [a] := by
  have ha := a.toNat_lt
  have h1 := value?_digit (n := a.toNat / 4) (by omega)
  have h2 := value?_digit (n := a.toNat % 4 * 16) (by omega)
  simp only [group?, h1, h2, Option.bind_eq_bind, Option.bind_some, and_self, if_true]
  rw [if_pos (by omega)]
  simp only [Option.pure_def, Option.some.injEq, List.cons.injEq, and_true]
  apply UInt8.toNat_inj.1
  simp only [UInt8.toNat_ofNat']
  omega

theorem group?_two (a b : UInt8) :
    group? (digit (a.toNat / 4)) (digit (a.toNat % 4 * 16 + b.toNat / 16))
      (digit (b.toNat % 16 * 4)) '=' = some [a, b] := by
  have ha := a.toNat_lt
  have hb := b.toNat_lt
  have h1 := value?_digit (n := a.toNat / 4) (by omega)
  have h2 := value?_digit (n := a.toNat % 4 * 16 + b.toNat / 16) (by omega)
  have h3 := value?_digit (n := b.toNat % 16 * 4) (by omega)
  have p3 := digit_ne_padding (n := b.toNat % 16 * 4) (by omega)
  simp only [group?, h1, h2, h3, p3, false_and, if_true, if_false, Option.bind_eq_bind,
    Option.bind_some]
  rw [if_pos (by omega)]
  simp only [Option.pure_def, Option.some.injEq, List.cons.injEq, and_true]
  refine ⟨?_, ?_⟩ <;> apply UInt8.toNat_inj.1 <;> simp only [UInt8.toNat_ofNat'] <;> omega

theorem group?_three (a b c : UInt8) :
    group? (digit (a.toNat / 4)) (digit (a.toNat % 4 * 16 + b.toNat / 16))
      (digit (b.toNat % 16 * 4 + c.toNat / 64)) (digit (c.toNat % 64)) = some [a, b, c] := by
  have ha := a.toNat_lt
  have hb := b.toNat_lt
  have hc := c.toNat_lt
  have h1 := value?_digit (n := a.toNat / 4) (by omega)
  have h2 := value?_digit (n := a.toNat % 4 * 16 + b.toNat / 16) (by omega)
  have h3 := value?_digit (n := b.toNat % 16 * 4 + c.toNat / 64) (by omega)
  have h4 := value?_digit (n := c.toNat % 64) (by omega)
  have p4 := digit_ne_padding (n := c.toNat % 64) (by omega)
  simp only [group?, h1, h2, h3, h4, p4, and_false, if_false, Option.bind_eq_bind, Option.bind_some,
    Option.pure_def, Option.some.injEq, List.cons.injEq, and_true]
  refine ⟨?_, ?_, ?_⟩ <;> apply UInt8.toNat_inj.1 <;> simp only [UInt8.toNat_ofNat'] <;> omega

theorem decode?_encode (bytes : Bytes) : decode? (encode bytes) = some bytes := by
  fun_induction encode bytes with
  | case1 => rfl
  | case2 a => simp [decode?, group?_one]
  | case3 a b => simp [decode?, group?_two]
  | case4 a b c rest ih => simp [decode?, group?_three, ih]

end Base64
end SpanMetrics.Bytes
