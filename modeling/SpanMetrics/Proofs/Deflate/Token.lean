import SpanMetrics.Deflate.Lemmas
import SpanMetrics.Proofs.Deflate.Code

/-!
# Reading back tokens

A token within the limits of the format is read back from its bits. The ranges of
lengths and distances leave no gap, so the last range that starts at or before a
value has the value in it; the last length stands in a range of its own, and the
range before it could hold it as well.
-/
namespace SpanMetrics.Deflate

/-- Each range reaches at least to the next one. -/
abbrev Gapless (ranges : List ValueRange) : Prop :=
  ranges.IsChain fun range next => next.base ≤ range.base + 2 ^ range.extra

theorem locate_cons (range : ValueRange) (rest : List ValueRange) {value : Nat}
    (h : range.base ≤ value) :
    locate (range :: rest) value =
      ((rest.takeWhile (·.base ≤ value)).length,
        (range :: rest).getD (rest.takeWhile (·.base ≤ value)).length ⟨0, 0⟩) := by
  have ht : (range :: rest).takeWhile (·.base ≤ value) =
      range :: rest.takeWhile (·.base ≤ value) := by
    rw [List.takeWhile_cons, if_pos (decide_eq_true h)]
  rw [locate, ht]
  rfl

/-- A value is located in a range that holds it. -/
theorem locate_spec {range : ValueRange} {rest : List ValueRange} {value : Nat}
    (hg : Gapless (range :: rest)) (hl : range.base ≤ value)
    (hu : ∀ last ∈ (range :: rest).getLast?, value < last.base + 2 ^ last.extra) :
    (range :: rest)[(locate (range :: rest) value).1]? =
        some (locate (range :: rest) value).2 ∧
      (locate (range :: rest) value).2.base ≤ value ∧
      value < (locate (range :: rest) value).2.base +
        2 ^ (locate (range :: rest) value).2.extra := by
  induction rest generalizing range with
  | nil =>
    rw [locate_cons range [] hl]
    exact ⟨rfl, hl, hu range rfl⟩
  | cons next rest ih =>
    rw [locate_cons range _ hl]
    obtain ⟨hadj, hrest⟩ := List.isChain_cons_cons.1 hg
    by_cases hn : next.base ≤ value
    · have hi := ih hrest hn fun last hm => hu last (by rw [List.getLast?_cons_cons]; exact hm)
      rw [locate_cons next rest hn] at hi
      rw [List.takeWhile_cons, if_pos (decide_eq_true hn)]
      exact hi
    · rw [List.takeWhile_cons, if_neg (by simpa using hn)]
      exact ⟨rfl, hl, lt_of_lt_of_le (Nat.lt_of_not_le hn) hadj⟩

/-- A value is read back from its place in its range. -/
theorem rangeValue?_low {range : ValueRange} {rest : List ValueRange} {value : Nat}
    (hg : Gapless (range :: rest)) (hl : range.base ≤ value)
    (hu : ∀ last ∈ (range :: rest).getLast?, value < last.base + 2 ^ last.extra) (bits : Bits) :
    rangeValue? (range :: rest) (locate (range :: rest) value).1
        (Bits.low (locate (range :: rest) value).2.extra
          (value - (locate (range :: rest) value).2.base) ++ bits) = some (value, bits) := by
  obtain ⟨hm, hb, hlt⟩ := locate_spec hg hl hu
  have ho : value - (locate (range :: rest) value).2.base <
      2 ^ (locate (range :: rest) value).2.extra := by omega
  simp only [rangeValue?, hm, Option.bind_eq_bind, Option.bind_some, Bits.read?_low ho,
    Option.pure_def]
  rw [Nat.add_sub_cancel' hb]

namespace Token

/-- The limits of the format. -/
def InRange : Token → Prop
  | literal _ => True
  | copy length distance =>
    3 ≤ length ∧ length ≤ longestCopy ∧ 1 ≤ distance ∧ distance ≤ window

/-- Number of bytes that a token stands for. -/
def size : Token → Nat
  | literal _ => 1
  | copy length _ => length

end Token

/-- A located range is one of the ranges. -/
theorem locate_mem {range : ValueRange} {rest : List ValueRange} {value : Nat}
    (h : range.base ≤ value) : (locate (range :: rest) value).2 ∈ range :: rest := by
  rw [locate_cons range rest h]
  have hl : (rest.takeWhile (·.base ≤ value)).length < (range :: rest).length :=
    Nat.lt_succ_of_le (List.takeWhile_sublist _).length_le
  rw [List.getD_eq_getElem _ _ hl]
  exact List.getElem_mem hl

theorem rangeValue?_length {length : Nat} (hl : 3 ≤ length) (hu : length ≤ longestCopy)
    (bits : Bits) :
    rangeValue? lengthRanges (locate lengthRanges length).1
        (Bits.low (locate lengthRanges length).2.extra
          (length - (locate lengthRanges length).2.base) ++ bits) = some (length, bits) := by
  refine rangeValue?_low (by decide) hl ?_ bits
  intro last hm
  obtain rfl : (⟨258, 0⟩ : ValueRange) = last := Option.some.inj hm
  exact Nat.lt_succ_of_le hu

theorem rangeValue?_distance {distance : Nat} (hl : 1 ≤ distance) (hu : distance ≤ window)
    (bits : Bits) :
    rangeValue? distanceRanges (locate distanceRanges distance).1
        (Bits.low (locate distanceRanges distance).2.extra
          (distance - (locate distanceRanges distance).2.base) ++ bits) =
      some (distance, bits) := by
  refine rangeValue?_low (by decide) hl ?_ bits
  intro last hm
  obtain rfl : (⟨24577, 13⟩ : ValueRange) = last := Option.some.inj hm
  exact Nat.lt_succ_of_le hu

theorem locate_lt (range : ValueRange) (rest : List ValueRange) (value : Nat) :
    (locate (range :: rest) value).1 < (range :: rest).length := by
  have h := (List.takeWhile_sublist (l := range :: rest) (·.base ≤ value)).length_le
  simp only [locate, List.length_cons] at h ⊢
  omega

/-- A token is read back from its bits. -/
theorem readToken?_bits {token : Token} (h : token.InRange) (rest : Bits) :
    readToken? fixedCodes (token.bits ++ rest) = some (some token, rest) := by
  cases token with
  | literal byte =>
    have hb : byte.toNat < endOfBlock := byte.toNat_lt
    have hs : byte.toNat < 288 := lt_trans hb (by decide)
    simp only [readToken?, Token.bits, read?_fixedWord hs, Option.bind_eq_bind, Option.bind_some]
    rw [if_pos hb, UInt8.ofNat_toNat]
    rfl
  | copy length distance =>
    obtain ⟨hl, hu, hd, hw⟩ := h
    have hplace : (locate lengthRanges length).1 < 29 := locate_lt _ _ length
    have hdist : (locate distanceRanges distance).1 < 30 := locate_lt _ _ distance
    have hs : firstLength + (locate lengthRanges length).1 < 288 := by
      rw [firstLength]
      omega
    have hp : (locate distanceRanges distance).1 < 32 := by omega
    have hne : ¬firstLength + (locate lengthRanges length).1 < endOfBlock := by
      rw [firstLength, endOfBlock]
      omega
    have hend : firstLength + (locate lengthRanges length).1 ≠ endOfBlock := by
      rw [firstLength, endOfBlock]
      omega
    simp only [readToken?, Token.bits, rangeBits, List.append_assoc, read?_fixedWord hs,
      Option.bind_eq_bind, Option.bind_some, if_neg hne, if_neg hend, Nat.add_sub_cancel_left,
      rangeValue?_length hl hu, read?_fixedDistance hp, rangeValue?_distance hd hw,
      Option.pure_def]

theorem readToken?_endOfBlock (rest : Bits) :
    readToken? fixedCodes (fixedWord endOfBlock ++ rest) = some (none, rest) := by
  have hs : endOfBlock < 288 := by decide
  simp only [readToken?, read?_fixedWord hs, Option.bind_eq_bind, Option.bind_some]
  rfl

/-- Tokens within the limits that lead from the bytes before to the bytes after,
both held in reverse. -/
structure Writes (tokens : List Token) (past after : Bytes) : Prop where
  inRange : ∀ token ∈ tokens, token.InRange
  onto : tokens.foldlM Token.onto? past = some after

theorem writes_nil (past : Bytes) : Writes [] past past := ⟨by simp, rfl⟩

theorem Writes.cons {token : Token} {tokens : List Token} {past next after : Bytes}
    (h : Writes tokens next after) (hr : token.InRange) (ho : token.onto? past = some next) :
    Writes (token :: tokens) past after := by
  refine ⟨List.forall_mem_cons.2 ⟨hr, h.inRange⟩, ?_⟩
  rw [List.foldlM_cons, ho]
  exact h.onto

/-- Tokens up to the end of a block are read back and put onto what was there. -/
theorem readTokens?_flatMap_bits {tokens : List Token} {past after : Bytes}
    (h : Writes tokens past after) {steps : Nat} (hs : tokens.length < steps) (rest : Bits) :
    readTokens? fixedCodes steps past (tokens.flatMap Token.bits ++ (fixedWord endOfBlock ++ rest)) =
      some (after, rest) := by
  obtain ⟨h, ho⟩ := h
  induction tokens generalizing past steps with
  | nil =>
    obtain rfl := Option.some.inj ho
    obtain ⟨n, rfl⟩ := Nat.exists_eq_add_one_of_ne_zero (Nat.ne_of_gt hs)
    rw [List.flatMap_nil, List.nil_append, readTokens?, readToken?_endOfBlock]
    rfl
  | cons token tokens ih =>
    obtain ⟨ht, hts⟩ := List.forall_mem_cons.1 h
    rw [List.foldlM_cons] at ho
    obtain ⟨next, hn, hrest⟩ := Option.bind_eq_some_iff.1 ho
    obtain ⟨n, rfl⟩ := Nat.exists_eq_add_one_of_ne_zero (Nat.ne_of_gt (Nat.zero_lt_of_lt hs))
    have hi := ih (Nat.lt_of_succ_lt_succ hs) hts hrest
    rw [List.flatMap_cons, List.append_assoc, readTokens?, readToken?_bits ht]
    simp only [Option.bind_eq_bind, Option.bind_some, hn]
    exact hi

namespace Token

/-- A token takes a bit at least, and at most two bytes for each byte it stands for. -/
theorem length_bits {token : Token} (h : token.InRange) :
    1 ≤ token.bits.length ∧ token.bits.length ≤ 16 * token.size := by
  cases token with
  | literal byte =>
    have hb := byte.toNat_lt
    have hs : byte.toNat < 288 := by omega
    obtain ⟨hl, hu⟩ := length_fixedWord hs
    simp only [bits, size]
    omega
  | copy length distance =>
    obtain ⟨hl, -, hd, -⟩ := h
    have hplace : (locate lengthRanges length).1 < 29 := locate_lt _ _ length
    have hs : firstLength + (locate lengthRanges length).1 < 288 := by
      rw [firstLength]
      omega
    obtain ⟨hw, hw9⟩ := length_fixedWord hs
    have he5 : ∀ range ∈ lengthRanges, range.extra ≤ 5 := by decide
    have he13 : ∀ range ∈ distanceRanges, range.extra ≤ 13 := by decide
    have hle : (locate lengthRanges length).2.extra ≤ 5 := he5 _ (locate_mem hl)
    have hde : (locate distanceRanges distance).2.extra ≤ 13 := he13 _ (locate_mem hd)
    simp only [bits, rangeBits, size, Bits.high, List.length_append, List.length_reverse,
      Bits.length_low]
    omega

theorem length_flatMap_bits {tokens : List Token} (h : ∀ token ∈ tokens, token.InRange) :
    tokens.length ≤ (tokens.flatMap bits).length ∧
      (tokens.flatMap bits).length ≤ 16 * (tokens.map size).sum := by
  induction tokens with
  | nil => exact ⟨le_rfl, le_rfl⟩
  | cons token tokens ih =>
    obtain ⟨ht, hts⟩ := List.forall_mem_cons.1 h
    obtain ⟨hl, hu⟩ := length_bits ht
    obtain ⟨il, iu⟩ := ih hts
    simp only [List.flatMap_cons, List.length_append, List.length_cons, List.map_cons,
      List.sum_cons]
    omega

end Token

theorem length_copyBack? {length distance : Nat} {past after : Bytes}
    (h : copyBack? length distance past = some after) : after.length = past.length + length := by
  induction length generalizing past with
  | zero =>
    obtain rfl := Option.some.inj h
    rfl
  | succ length ih =>
    rw [copyBack?] at h
    split at h
    · exact absurd h (by simp)
    · obtain ⟨byte, -, hrest⟩ := Option.bind_eq_some_iff.1 h
      rw [ih hrest, List.length_cons]
      omega

/-- A token adds as many bytes as it stands for. -/
theorem length_foldlM_onto? {tokens : List Token} {past after : Bytes}
    (h : tokens.foldlM Token.onto? past = some after) :
    after.length = past.length + (tokens.map Token.size).sum := by
  induction tokens generalizing past with
  | nil =>
    obtain rfl := Option.some.inj h
    rfl
  | cons token tokens ih =>
    rw [List.foldlM_cons] at h
    obtain ⟨next, hn, hrest⟩ := Option.bind_eq_some_iff.1 h
    have hnext : next.length = past.length + token.size := by
      cases token with
      | literal byte =>
        obtain rfl := Option.some.inj hn
        rfl
      | copy length distance => exact length_copyBack? hn
    rw [ih hrest, hnext, List.map_cons, List.sum_cons]
    omega

end SpanMetrics.Deflate
