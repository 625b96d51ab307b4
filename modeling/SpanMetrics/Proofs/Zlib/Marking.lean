import SpanMetrics.Proofs.Zlib.Indexed

/-!
# Marking the last block

A bit of the flushed stream is set where the header of its last block may start. The
true place is one of those that are tried, and the stream marked there reads back. A
stream in which no bit changed never does: no block of it is the last one, and a last
block in the check leaves less than a check. So what is kept has one more bit set.
-/
namespace SpanMetrics.Zlib

open Deflate

/-! ## Setting a bit -/

theorem toNat_or_bit (b : UInt8) {place : Nat} (hp : place < 8) :
    (b ||| (1 : UInt8) <<< UInt8.ofNat place).toNat = b.toNat ||| 2 ^ place := by
  have hbit : ∀ place < 8, ((1 : UInt8) <<< UInt8.ofNat place).toNat = 2 ^ place := by decide
  rw [UInt8.toNat_or, hbit place hp]

/-- A bit beyond the first byte. -/
theorem setBit_cons (place : Nat) (b : UInt8) (bytes : Bytes) :
    setBit (place + 8) (b :: bytes) = b :: setBit place bytes := by
  have hq : (place + 8) / 8 = place / 8 + 1 := Nat.add_div_right place (by decide)
  have hm : (place + 8) % 8 = place % 8 := Nat.add_mod_right place 8
  rw [setBit, hq, hm, List.modify_succ_cons, setBit]

/-- The bits of a stream after one of them is set. -/
theorem ofBytes_setBit (place : Nat) (bytes : Bytes) :
    Bits.ofBytes (setBit place bytes) = (Bits.ofBytes bytes).set place true := by
  induction bytes generalizing place with
  | nil => simp [setBit]
  | cons b bytes ih =>
    by_cases hp : place < 8
    · have hq : place / 8 = 0 := Nat.div_eq_of_lt hp
      have hm : place % 8 = place := Nat.mod_eq_of_lt hp
      have hl : place < (Bits.low 8 b.toNat).length := by rwa [Bits.length_low]
      rw [setBit, hq, hm, List.modify_zero_cons, Bits.ofBytes_cons, toNat_or_bit b hp,
        Bits.low_or_two_pow, Bits.ofBytes_cons, List.set_append_left _ _ hl]
    · obtain ⟨k, rfl⟩ := Nat.exists_eq_add_of_le' (Nat.le_of_not_lt hp)
      have hl : (Bits.low 8 b.toNat).length ≤ k + 8 := by
        rw [Bits.length_low]
        omega
      rw [setBit_cons, Bits.ofBytes_cons, ih, Bits.ofBytes_cons, List.set_append_right _ _ hl,
        Bits.length_low, Nat.add_sub_cancel]

theorem ofBytes_injective {a b : Bytes} (h : Bits.ofBytes a = Bits.ofBytes b) : a = b := by
  rw [← Bits.toBytes_ofBytes a, h, Bits.toBytes_ofBytes]

/-- A bit that is set stays as it is. -/
theorem setBit_of_set {place : Nat} {bytes : Bytes}
    (h : (Bits.ofBytes bytes)[place]? = some true) : setBit place bytes = bytes := by
  apply ofBytes_injective
  rw [ofBytes_setBit]
  obtain ⟨hl, he⟩ := List.getElem?_eq_some_iff.1 h
  rw [← he, List.set_getElem_self]

theorem lastBytes_append (left right : Bytes) : lastBytes right.length (left ++ right) = right := by
  rw [lastBytes, List.length_append, Nat.add_sub_cancel, List.drop_left]

/-- Blocks that are read to the last one take ten bits. -/
theorem length_le_of_readBlocks? {steps : Nat} {past after : Bytes} {bits rest : Bits}
    (h : readBlocks? steps past bits = some (after, rest)) : rest.length + 10 ≤ bits.length := by
  induction steps generalizing past bits with
  | zero => cases h
  | succ steps ih =>
    rw [readBlocks?] at h
    obtain ⟨⟨final, next, middle⟩, hb, hrest⟩ := Option.bind_eq_some_iff.1 h
    obtain ⟨front, rfl, hl, -⟩ := readBlock?_front hb
    have hm : rest.length ≤ middle.length := by
      cases final with
      | true =>
        obtain ⟨-, rfl⟩ := Prod.mk.inj (Option.some.inj hrest)
        exact le_rfl
      | false =>
        have hlen := ih hrest
        omega
    rw [List.length_append]
    omega

/-- A byte sequence whose bits end with those of another one. -/
theorem exists_of_ofBytes_eq_append {bytes tail : Bytes} {bits : Bits}
    (h : Bits.ofBytes bytes = bits ++ Bits.ofBytes tail) :
    ∃ head, bytes = head ++ tail := by
  have hl := congrArg List.length h
  rw [List.length_append, Bits.length_ofBytes, Bits.length_ofBytes] at hl
  have hsplit := List.take_append_drop (bytes.length - tail.length) bytes
  rw [← hsplit, Bits.ofBytes_append] at h
  obtain ⟨-, htail⟩ := List.append_inj' h (by
    rw [Bits.length_ofBytes, Bits.length_ofBytes, List.length_drop]
    omega)
  rw [ofBytes_injective htail] at hsplit
  exact ⟨_, hsplit.symm⟩

theorem exists_append_cons_of_lt {bits : Bits} {place : Nat} (h : place < bits.length) :
    ∃ left bit right, bits = left ++ bit :: right ∧ left.length = place := by
  refine ⟨bits.take place, bits[place], bits.drop (place + 1), ?_, List.length_take_of_le h.le⟩
  rw [← List.drop_eq_getElem_cons h, List.take_append_drop]

/-- A stream from a flushed one: of the ten bits before the marker one is set that was
not, every other bit is as it was, and the check of the content follows. -/
def Marks (f : Flushed) (content stream : Bytes) : Prop :=
  ∃ left between : Bits, 2 ≤ between.length ∧ between.length < 10 ∧
    Bits.ofBytes f.synced = left ++ false :: (between ++ Bits.ofBytes marker) ∧
    Bits.ofBytes stream = left ++ true :: (between ++ Bits.ofBytes marker) ++
      Bits.ofBytes (Bytes.bigEndian 4 (adler32 content))

/-! ## The places that are tried -/

namespace Flushes

variable {f : Flushed} {content : Bytes}

theorem synced_prefix (h : Flushes f content) : f.synced <+: f.finished := by
  obtain ⟨last, fill, he, -⟩ := h.finished
  rw [he, List.append_assoc]
  exact List.prefix_append _ _

theorem check_eq (h : Flushes f content) :
    lastBytes 4 f.finished = Bytes.bigEndian 4 (adler32 content) := by
  obtain ⟨last, fill, he, -⟩ := h.finished
  have hl := Bytes.length_bigEndian 4 (adler32 content)
  rw [he, ← hl]
  exact lastBytes_append _ _

/-- Without a mark a flushed stream does not read back. -/
theorem inflate?_unmarked (h : Flushes f content) :
    inflate? (f.synced ++ Bytes.bigEndian 4 (adler32 content)) = none := by
  obtain ⟨method, flags, body, front, fill, hs, hh, hf, hbody, -, -, hblocks⟩ := h.blocks
  have hcheck := length_ofBytes_check content
  have hwhole : (Bits.ofBytes (Bytes.bigEndian 4 (adler32 content))).length % 8 = 0 := by
    rw [hcheck]
  cases hi : inflate? (f.synced ++ Bytes.bigEndian 4 (adler32 content)) with
  | none => rfl
  | some other =>
    exfalso
    rw [hs, List.cons_append, List.cons_append, inflate?, hh] at hi
    obtain ⟨⟨found, rest⟩, hfound, htrailer⟩ := Option.bind_eq_some_iff.1 hi
    rw [Deflate.inflate?, Bits.ofBytes_append, hbody] at hfound
    obtain ⟨⟨past, left⟩, hpast, heq⟩ := Option.map_eq_some_iff.1 hfound
    obtain ⟨-, rfl⟩ := Prod.mk.inj heq
    simp only [List.append_assoc] at hpast
    -- what is read behind the blocks and the empty block is the check
    obtain ⟨more, hmore⟩ := (hblocks false _ hwhole).readBlocks? hpast
    have hempty := readBlock?_empty false content.reverse hf hwhole
    obtain ⟨steps, hsteps⟩ := (Blocks.cons hempty (.nil _ _)).readBlocks? hmore
    have hleft := length_le_of_readBlocks? hsteps
    -- a last block in the check would leave too little of it
    have hbytes := Bits.length_toBytes_le (Bits.align left)
    have halign : (Bits.align left).length ≤ left.length := by
      rw [Bits.align, List.length_drop]
      exact Nat.sub_le _ _
    have hne : Bits.toBytes (Bits.align left) ≠ Bytes.bigEndian 4 (adler32 found) := by
      intro he
      rw [he, Bytes.length_bigEndian] at hbytes
      omega
    dsimp only at htrailer
    rw [if_neg hne] at htrailer
    cases htrailer

/-- The header of the empty block starts at one of the places, and the stream marked
there reads back. -/
theorem exists_place (h : Flushes f content) :
    ∃ place ∈ candidatePlaces f.synced, inflate? (marked f place) = some content := by
  obtain ⟨method, flags, body, front, fill, hs, hh, hf, hbody, hl, -, hblocks⟩ := h.blocks
  have hwhole : (Bits.ofBytes (Bytes.bigEndian 4 (adler32 content))).length % 8 = 0 := by
    rw [length_ofBytes_check]
  have hm : marker.length = 4 := rfl
  have hlen : f.synced.length = body.length + 2 := by rw [hs]; rfl
  refine ⟨front.length + 8 + 8, List.mem_map.2 ⟨3 + fill.length, ?_, ?_⟩, ?_⟩
  · rw [List.mem_range'_1]
    omega
  · omega
  · have hset : Bits.ofBytes (setBit front.length body) =
        front ++ ([true, false, false] ++ (fill ++ Bits.ofBytes marker)) := by
      rw [ofBytes_setBit, hbody, List.set_append_right _ _ le_rfl, Nat.sub_self]
      rfl
    have hmarked : marked f (front.length + 8 + 8) = method :: flags ::
        (setBit front.length body ++ Bytes.bigEndian 4 (adler32 content)) := by
      rw [marked, h.check_eq, hs, setBit_cons, setBit_cons]
      rfl
    have hlast := reads_last (readBlock?_empty true content.reverse hf hwhole)
    have hreads := (hblocks true _ hwhole).reads hlast
    rw [hmarked]
    refine inflate?_of_reads hh (show ([] : Bits).length < 8 by decide) ?_
    rw [Bits.ofBytes_append, hset]
    simpa only [List.append_assoc, List.nil_append] using hreads

/-! ## What is settled on -/

/-- A flushed stream of a content ends with the marker, and a block stands before it. -/
theorem synced_eq (h : Flushes f content) (hc : content ≠ []) :
    ∃ before, f.synced = before ++ marker ∧ 4 ≤ before.length := by
  obtain ⟨method, flags, body, front, fill, hs, -, -, hbody, hl, hfront, -⟩ := h.blocks
  have hten := hfront hc
  rw [← List.append_assoc, ← List.append_assoc] at hbody
  obtain ⟨head, rfl⟩ := exists_of_ofBytes_eq_append hbody
  have hm : marker.length = 4 := rfl
  rw [List.length_append, hm] at hl
  refine ⟨method :: flags :: head, hs, ?_⟩
  rw [List.length_cons, List.length_cons]
  omega

/-- The last block takes bytes of its own. -/
theorem length_synced_lt (h : Flushes f content) : f.synced.length + 4 < f.finished.length := by
  obtain ⟨last, fill, he, -, hlast⟩ := h.finished
  obtain ⟨block, hbits, hten, -⟩ := readBlock?_front hlast
  have hl := congrArg List.length hbits
  rw [Bits.length_ofBytes, List.length_append] at hl
  rw [he, List.length_append, List.length_append, Bytes.length_bigEndian]
  omega

/-- A place at which the marked stream reads back holds a bit that was not set. -/
theorem marks (h : Flushes f content) (hc : content ≠ []) {place : Nat}
    (hp : place ∈ candidatePlaces f.synced) (hi : inflate? (marked f place) = some content) :
    Marks f content (marked f place) := by
  obtain ⟨before, hs, hl⟩ := h.synced_eq hc
  obtain ⟨back, hb, hplace⟩ := List.mem_map.1 hp
  rw [List.mem_range'_1] at hb
  rw [hs, List.length_append, Nat.add_sub_cancel] at hplace
  have hlt : place < (Bits.ofBytes before).length := by
    rw [Bits.length_ofBytes]
    omega
  obtain ⟨left, bit, between, hsplit, hleft⟩ := exists_append_cons_of_lt hlt
  have hsynced : Bits.ofBytes f.synced = left ++ bit :: (between ++ Bits.ofBytes marker) := by
    rw [hs, Bits.ofBytes_append, hsplit, List.append_assoc, List.cons_append]
  have hbetween := congrArg List.length hsplit
  rw [Bits.length_ofBytes, List.length_append, List.length_cons] at hbetween
  cases bit with
  | true =>
    have hset : setBit place f.synced = f.synced := by
      apply setBit_of_set
      rw [hsynced, ← hleft, List.getElem?_append_right le_rfl, Nat.sub_self]
      rfl
    rw [marked, hset, h.check_eq, h.inflate?_unmarked] at hi
    cases hi
  | false =>
    refine ⟨left, between, by omega, by omega, hsynced, ?_⟩
    rw [marked, Bits.ofBytes_append, ofBytes_setBit, hsynced, h.check_eq, ← hleft,
      List.set_append_right _ _ le_rfl, Nat.sub_self]
    rfl

/-- The search never comes to its end without a stream. -/
theorem exists_settle_eq (h : Flushes f content) (hc : content ≠ []) :
    ∃ place ∈ candidatePlaces f.synced, settle f content = marked f place := by
  obtain ⟨before, hs, hl⟩ := h.synced_eq hc
  have hm : marker.length = 4 := rfl
  have hsynced : f.synced.length = before.length + 4 := by rw [hs, List.length_append, hm]
  rcases settle_cases f content with ⟨-, hshort | hfinished | hlast | hnone⟩ | ⟨place, hp, he, -⟩
  · have hh : header.length = 2 := rfl
    omega
  · have hlt := h.length_synced_lt
    omega
  · rw [hs] at hlast
    exact absurd (lastBytes_append before marker) hlast
  · obtain ⟨place, hp, hi⟩ := h.exists_place
    exact absurd hi (hnone place hp)
  · exact ⟨place, hp, he⟩

end Flushes

/-- Whatever encoder answers as is asked here, the stream of a content is found without
an index out of range, and is complete. For a content that is not empty it is not the
finished stream: one bit of the flushed stream is set that was not, and the check
follows. -/
theorem compressWith_marks {answers : Bytes → Flushed} {content : Bytes}
    (h : Flushes (answers content) content) :
    let f := answers content
    let stream := compressWith answers content
    settle? f.synced.length f.finished content = some stream ∧
      inflate? stream = some content ∧
      (content ≠ [] → stream ≠ f.finished ∧ Marks f content stream) := by
  have hi : inflate? (compressWith answers content) = some content := inflate?_settle h.complete
  refine ⟨settle?_eq h.synced_prefix content, hi, fun hc => ?_⟩
  obtain ⟨place, hp, he⟩ := h.exists_settle_eq hc
  rw [compressWith, he] at hi ⊢
  refine ⟨fun hf => ?_, h.marks hc hp hi⟩
  -- the finished stream has a last block besides
  have hlt := h.length_synced_lt
  have hl := congrArg List.length hf
  rw [marked, h.check_eq, List.length_append, length_setBit, Bytes.length_bigEndian] at hl
  omega

/-- One byte, from the encoder of this library. -/
theorem compressWith_marks_of_byte :
    let f := deflate [0x2A]
    let stream := compressWith deflate [0x2A]
    Flushes f [0x2A] ∧ settle? f.synced.length f.finished [0x2A] = some stream ∧
      inflate? stream = some [0x2A] ∧ stream ≠ f.finished ∧ Marks f [0x2A] stream := by
  have h := flushes_deflate [0x2A]
  obtain ⟨hs, hi, hm⟩ := compressWith_marks h
  exact ⟨h, hs, hi, hm (by decide)⟩

end SpanMetrics.Zlib
