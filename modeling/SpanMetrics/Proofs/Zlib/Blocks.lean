import SpanMetrics.Proofs.Deflate.Front
import SpanMetrics.Proofs.Deflate.Matching
import SpanMetrics.Zlib.Compress

/-!
# Reading back blocks

The blocks that the encoder writes, read one after the other: data under the fixed
codes or stored data, the empty stored block of a flush, and the last block. What
is said of a block holds whatever follows it; a stored block also asks that whole
bytes follow, since it skips to the end of a byte.
-/
namespace SpanMetrics.Zlib

open Deflate

/-- Enough steps read the blocks at the start of the bits up to the last one. -/
def Reads (past : Bytes) (bits : Bits) (out : Bytes × Bits) : Prop :=
  ∀ steps, bits.length ≤ steps → readBlocks? steps past bits = some out

/-- A block that is not the last one is read before the others. -/
theorem Reads.cons {past next : Bytes} {bits rest : Bits} {out : Bytes × Bits}
    (h : Reads next rest out) (hb : readBlock? past bits = some (false, next, rest)) :
    Reads past bits out := by
  intro steps hs
  obtain ⟨front, rfl, hl, -⟩ := readBlock?_front hb
  rw [List.length_append] at hs
  obtain ⟨n, rfl⟩ := Nat.exists_eq_add_one_of_ne_zero (show steps ≠ 0 by omega)
  rw [readBlocks?, hb]
  exact h n (by omega)

theorem reads_last {past next : Bytes} {bits rest : Bits}
    (hb : readBlock? past bits = some (true, next, rest)) : Reads past bits (next, rest) := by
  intro steps hs
  obtain ⟨front, rfl, hl, -⟩ := readBlock?_front hb
  rw [List.length_append] at hs
  obtain ⟨n, rfl⟩ := Nat.exists_eq_add_one_of_ne_zero (show steps ≠ 0 by omega)
  rw [readBlocks?, hb]
  rfl

/-- Blocks at the start of the bits, none of them the last one, that lead from the bytes
before to the bytes after, both held in reverse. -/
inductive Blocks : (past : Bytes) → (bits : Bits) → (after : Bytes) → (rest : Bits) → Prop
  | nil (past : Bytes) (bits : Bits) : Blocks past bits past bits
  | cons {past next after : Bytes} {bits middle rest : Bits}
      (hb : readBlock? past bits = some (false, next, middle))
      (h : Blocks next middle after rest) : Blocks past bits after rest

namespace Blocks

variable {past after : Bytes} {bits rest : Bits}

/-- Blocks that are not the last one are read before the others. -/
theorem reads {out : Bytes × Bits} (h : Blocks past bits after rest) (hr : Reads after rest out) :
    Reads past bits out := by
  induction h with
  | nil => exact hr
  | cons hb _ ih => exact (ih hr).cons hb

/-- Whoever reads the blocks at the start goes on behind them. -/
theorem readBlocks? {out : Bytes × Bits} {steps : Nat} (h : Blocks past bits after rest)
    (hr : Deflate.readBlocks? steps past bits = some out) :
    ∃ more, Deflate.readBlocks? more after rest = some out := by
  induction h generalizing steps with
  | nil => exact ⟨steps, hr⟩
  | cons hb _ ih =>
    cases steps with
    | zero => cases hr
    | succ steps =>
      rw [Deflate.readBlocks?, hb] at hr
      exact ih hr

/-- The same blocks stand before any other bits that end a byte at the same place. -/
theorem front (h : Blocks past bits after rest) :
    ∃ front, bits = front ++ rest ∧ (after ≠ past → 10 ≤ front.length) ∧
      ∀ other : Bits, other.length % 8 = rest.length % 8 →
        Blocks past (front ++ other) after other := by
  induction h with
  | nil past bits => exact ⟨[], rfl, fun hne => absurd rfl hne, fun other _ => .nil past other⟩
  | cons hb _ ih =>
    obtain ⟨front, rfl, hl, hf⟩ := readBlock?_front hb
    obtain ⟨more, rfl, -, hm⟩ := ih
    refine ⟨front ++ more, (List.append_assoc _ _ _).symm, fun _ => ?_, fun other ho => ?_⟩
    · rw [List.length_append]
      omega
    · rw [List.append_assoc]
      refine .cons (hf _ ?_) (hm other ho)
      rw [List.length_append, List.length_append]
      omega

end Blocks

/-- A block under the fixed codes. -/
theorem readBlock?_fixed (final : Bool) {tokens : List Token} {past after : Bytes}
    (h : Writes tokens past after) (rest : Bits) :
    readBlock? past ([final, true, false] ++
        (tokens.flatMap Token.bits ++ (fixedWord endOfBlock ++ rest))) =
      some (final, after, rest) := by
  have hl := (Token.length_flatMap_bits h.inRange).1
  have he : 7 ≤ (fixedWord endOfBlock).length := (length_fixedWord (by decide)).1
  have hs : tokens.length <
      (tokens.flatMap Token.bits ++ (fixedWord endOfBlock ++ rest)).length := by
    simp only [List.length_append]
    omega
  have hr := readTokens?_flatMap_bits h hs rest
  have hb : (final.toNat + 2 * 0 == 1) = final := by cases final <;> rfl
  simp only [readBlock?, List.cons_append, List.nil_append, Bits.read?, Option.map_some,
    Option.bind_eq_bind, Option.bind_some, fixedCodes?_eq, hr, hb]
  rfl

theorem readStored?_ofBytes (part past : Bytes) (rest : Bits) :
    readStored? part.length past (Bits.ofBytes part ++ rest) =
      some (part.reverse ++ past, rest) := by
  induction part generalizing past with
  | nil => rfl
  | cons byte part ih =>
    have hb : byte.toNat < 2 ^ 8 := byte.toNat_lt
    rw [List.length_cons, Bits.ofBytes_cons, List.append_assoc, readStored?,
      Bits.read?_low hb, Option.bind_eq_bind, Option.bind_some]
    simp only [UInt8.ofNat_toNat, ih, List.reverse_cons, List.append_assoc, List.singleton_append]

/-- A stored block after its header. -/
def storedPart (part : Bytes) : Bytes :=
  Bytes.littleEndian 2 part.length ++ Bytes.littleEndian 2 (storedLimit - part.length) ++ part

theorem ofBytes_storedPart (part : Bytes) :
    Bits.ofBytes (storedPart part) =
      Bits.low 16 part.length ++ (Bits.low 16 (storedLimit - part.length) ++
        Bits.ofBytes part) := by
  rw [storedPart, Bits.ofBytes_append, Bits.ofBytes_append, Bits.ofBytes_littleEndian,
    Bits.ofBytes_littleEndian, List.append_assoc]

/-- A stored block, from its header on, with what fills the byte of the header up. -/
theorem readBlock?_stored (final : Bool) {fill : Bits} (hf : fill.length < 8) {part : Bytes}
    (hp : part.length ≤ storedLimit) (past : Bytes) {rest : Bits} (hr : rest.length % 8 = 0) :
    readBlock? past ([final, false, false] ++ (fill ++
        (Bits.ofBytes (storedPart part) ++ rest))) = some (final, part.reverse ++ past, rest) := by
  have hs : part.length < 2 ^ 16 := Nat.lt_succ_of_le hp
  have hc : storedLimit - part.length < 2 ^ 16 := Nat.lt_succ_of_le (Nat.sub_le _ _)
  have ha : (Bits.ofBytes (storedPart part) ++ rest).length % 8 = 0 := by
    rw [List.length_append, Bits.length_ofBytes]
    omega
  have hsum : part.length + (storedLimit - part.length) = 65535 := Nat.add_sub_cancel' hp
  have hone : ∀ bits, Bits.read? 1 ([final, false, false] ++ bits) =
      some (final.toNat, [false, false] ++ bits) := fun _ => rfl
  have htwo : ∀ bits, Bits.read? 2 ([false, false] ++ bits) = some (0, bits) := fun _ => rfl
  have hb : (final.toNat == 1) = final := by cases final <;> rfl
  rw [readBlock?, hone]
  simp only [Option.bind_eq_bind, Option.bind_some, htwo, Bits.align_append hf ha]
  rw [ofBytes_storedPart]
  simp only [List.append_assoc, Bits.read?_low hs, Bits.read?_low hc, Option.bind_some,
    if_pos hsum, readStored?_ofBytes, Option.pure_def, hb]

theorem storedBlocks_eq (content : Bytes) :
    storedBlocks content = 0x00 :: storedPart (content.take storedLimit) ++
      if content.length ≤ storedLimit then [] else storedBlocks (content.drop storedLimit) := by
  rw [storedBlocks]
  split
  · rw [List.append_nil]
    rfl
  · rfl

/-- A stored block whose header starts a byte. -/
theorem Blocks.stored {part past after : Bytes} {middle rest : Bits}
    (h : Blocks (part.reverse ++ past) middle after rest) (hp : part.length ≤ storedLimit)
    (hm : middle.length % 8 = 0) :
    Blocks past (Bits.ofBytes (0x00 :: storedPart part) ++ middle) after rest := by
  have hb : Bits.ofBytes (0x00 :: storedPart part) ++ middle =
      [false, false, false] ++ ([false, false, false, false, false] ++
        (Bits.ofBytes (storedPart part) ++ middle)) := rfl
  rw [hb]
  exact .cons (readBlock?_stored false (by decide) hp past hm) h

/-- Stored blocks hold their content, whatever follows them. -/
theorem blocks_storedBlocks (content past : Bytes) {rest : Bits} (hr : rest.length % 8 = 0) :
    Blocks past (Bits.ofBytes (storedBlocks content) ++ rest) (content.reverse ++ past) rest := by
  induction content using storedBlocks.induct generalizing past with
  | case1 content hle =>
    rw [storedBlocks_eq, if_pos hle, List.append_nil, List.take_of_length_le hle]
    exact (Blocks.nil _ rest).stored hle hr
  | case2 content hgt ih =>
    have hsplit : (content.drop storedLimit).reverse ++ ((content.take storedLimit).reverse ++ past) =
        content.reverse ++ past := by
      rw [← List.append_assoc, ← List.reverse_append, List.take_append_drop]
    rw [storedBlocks_eq, if_neg hgt, Bits.ofBytes_append, List.append_assoc, ← hsplit]
    refine (ih _).stored (List.length_take_le _ _) ?_
    rw [List.length_append, Bits.length_ofBytes]
    omega

theorem length_storedBlocks_le (content : Bytes) :
    (storedBlocks content).length ≤ 2 * content.length + 5 := by
  induction content using storedBlocks.induct with
  | case1 content hle =>
    rw [storedBlocks_eq, if_pos hle, List.take_of_length_le hle]
    simp only [storedPart, List.append_nil, List.length_cons, List.length_append,
      Bytes.length_littleEndian]
    omega
  | case2 content hgt ih =>
    rw [List.length_drop] at ih
    have ht : (content.take storedLimit).length = storedLimit :=
      List.length_take_of_le (Nat.le_of_not_le hgt)
    have hs : storedLimit = 65535 := rfl
    rw [storedBlocks_eq, if_neg hgt]
    simp only [storedPart, List.length_cons, List.length_append, Bytes.length_littleEndian, ht]
    omega

/-- The data of a content, before bits that complete the last byte. -/
theorem blocks_dataBits (content : Bytes) {rest : Bits}
    (hr : (dataBits content ++ rest).length % 8 = 0) :
    Blocks [] (dataBits content ++ rest) content.reverse rest := by
  rw [dataBits] at hr ⊢
  split
  · next he =>
    rw [List.isEmpty_iff.1 he]
    exact .nil [] rest
  · next hne =>
    rw [if_neg hne] at hr
    dsimp only at hr ⊢
    split
    · next hs =>
      rw [if_pos hs, List.length_append, Bits.length_ofBytes] at hr
      have hb := blocks_storedBlocks content [] (show rest.length % 8 = 0 by omega)
      rwa [List.append_nil] at hb
    · rw [fixedBlock, List.append_assoc, List.append_assoc]
      exact .cons (readBlock?_fixed false (writes_tokens content) rest) (.nil _ rest)

theorem length_dataBits_le (content : Bytes) :
    (dataBits content).length ≤ 16 * content.length + 40 := by
  have hs := length_storedBlocks_le content
  have hw := writes_tokens content
  have hb := (Token.length_flatMap_bits hw.inRange).2
  have hc := length_foldlM_onto? hw.onto
  have he : (fixedWord endOfBlock).length ≤ 9 := (length_fixedWord (by decide)).2
  rw [List.length_reverse, List.length_nil, Nat.zero_add] at hc
  unfold dataBits
  split
  · exact Nat.zero_le _
  · dsimp only
    split
    · rw [Bits.length_ofBytes]
      omega
    · rw [fixedBlock]
      simp only [List.length_append, List.length_cons, List.length_nil]
      omega

end SpanMetrics.Zlib
