import SpanMetrics.Proofs.Zlib.Blocks

/-!
# What an encoder answers

After a flush an encoder has written a header and blocks with all of the content, none
of them the last one and an empty stored block behind the others. To finish it appends
a last block without content and the check. This is all that is assumed of an encoder
here; how it compresses is its own affair. The encoder of this library answers so.
-/
namespace SpanMetrics.Zlib

open Deflate

structure Flushes (f : Flushed) (content : Bytes) : Prop where
  /-- The header, the blocks, and the empty stored block with what fills its byte up. -/
  synced : ∃ method flags body fill, f.synced = method :: flags :: body ∧ headerOk method flags ∧
    fill.length < 8 ∧ Blocks [] (Bits.ofBytes body) content.reverse
      (syncHeader ++ (fill ++ Bits.ofBytes marker))
  /-- The last block, with what fills its last byte up, and the check. -/
  finished : ∃ last fill, f.finished = f.synced ++ last ++ Bytes.bigEndian 4 (adler32 content) ∧
    fill.length < 8 ∧ readBlock? content.reverse (Bits.ofBytes last) =
      some (true, content.reverse, fill)

theorem length_ofBytes_check (content : Bytes) :
    (Bits.ofBytes (Bytes.bigEndian 4 (adler32 content))).length = 32 := by
  rw [Bits.length_ofBytes, Bytes.length_bigEndian]

/-- A stream whose blocks are read to their end and leave the check. -/
theorem inflate?_of_reads {method flags : UInt8} {body content : Bytes} {fill : Bits}
    (hh : headerOk method flags) (hf : fill.length < 8)
    (h : Reads [] (Bits.ofBytes body)
      (content.reverse, fill ++ Bits.ofBytes (Bytes.bigEndian 4 (adler32 content)))) :
    inflate? (method :: flags :: body) = some content := by
  have hw : (Bits.ofBytes (Bytes.bigEndian 4 (adler32 content))).length % 8 = 0 := by
    rw [length_ofBytes_check]
  have hi : Deflate.inflate? (Bits.ofBytes body) =
      some (content, fill ++ Bits.ofBytes (Bytes.bigEndian 4 (adler32 content))) := by
    rw [Deflate.inflate?, h _ le_rfl, Option.map_some]
    simp only [List.reverse_reverse]
  rw [inflate?, hh]
  simp only [hi, Option.bind_eq_bind, Option.bind_some, Bits.align_append hf hw,
    Bits.toBytes_ofBytes]
  rfl

/-- An empty stored block, the last one or not. -/
theorem readBlock?_empty (final : Bool) (past : Bytes) {fill rest : Bits} (hf : fill.length < 8)
    (hr : rest.length % 8 = 0) :
    readBlock? past ([final, false, false] ++ (fill ++ (Bits.ofBytes marker ++ rest))) =
      some (final, past, rest) := by
  have hm : storedPart [] = marker := by decide
  have hp : ([] : Bytes).length ≤ storedLimit := Nat.zero_le _
  have hb := readBlock?_stored final hf hp past hr
  rwa [hm, List.reverse_nil, List.nil_append] at hb

namespace Flushes

variable {f : Flushed} {content : Bytes}

/-- The bits of a flush behind the header: those of the blocks, and those of the empty
block. The blocks are read in the same way if the empty block is marked or not, and
whichever whole bytes follow. -/
theorem blocks (h : Flushes f content) :
    ∃ method flags body front fill, f.synced = method :: flags :: body ∧ headerOk method flags ∧
      fill.length < 8 ∧
      Bits.ofBytes body = front ++ (syncHeader ++ (fill ++ Bits.ofBytes marker)) ∧
      8 * body.length = front.length + fill.length + 35 ∧
      (content ≠ [] → 10 ≤ front.length) ∧
      ∀ (final : Bool) (rest : Bits), rest.length % 8 = 0 →
        Blocks [] (front ++ ([final, false, false] ++ (fill ++ (Bits.ofBytes marker ++ rest))))
          content.reverse ([final, false, false] ++ (fill ++ (Bits.ofBytes marker ++ rest))) := by
  obtain ⟨method, flags, body, fill, hs, hh, hf, hb⟩ := h.synced
  obtain ⟨front, hbody, hten, hfront⟩ := hb.front
  have hne : content ≠ [] → content.reverse ≠ [] := mt List.reverse_eq_nil_iff.1
  have hm : (Bits.ofBytes marker).length = 32 := Bits.length_ofBytes marker
  refine ⟨method, flags, body, front, fill, hs, hh, hf, hbody, ?_, fun hc => hten (hne hc),
    fun final rest hr => hfront _ ?_⟩
  · have hl := congrArg List.length hbody
    simp only [Bits.length_ofBytes, syncHeader, List.length_append, List.length_cons,
      List.length_nil, hm] at hl
    omega
  · simp only [syncHeader, List.length_append, List.length_cons, List.length_nil, hm]
    omega

/-- What an encoder has written when it is finished is a complete stream. -/
theorem complete (h : Flushes f content) : inflate? f.finished = some content := by
  obtain ⟨method, flags, body, front, fill, hs, hh, hf, hbody, -, -, hblocks⟩ := h.blocks
  obtain ⟨last, tail, he, ht, hlast⟩ := h.finished
  obtain ⟨block, hbits, -, hblock⟩ := readBlock?_front hlast
  have hcheck := length_ofBytes_check content
  have hwhole := congrArg List.length hbits
  rw [Bits.length_ofBytes, List.length_append] at hwhole
  -- the last block is read before the check as it is read alone
  have hend := reads_last (hblock (tail ++ Bits.ofBytes (Bytes.bigEndian 4 (adler32 content))) (by
    rw [List.length_append]
    omega))
  have hrest : (block ++ (tail ++ Bits.ofBytes (Bytes.bigEndian 4 (adler32 content)))).length % 8 =
      0 := by
    simp only [List.length_append]
    omega
  have hsync := hend.cons (readBlock?_empty false content.reverse hf hrest)
  have hall := (hblocks false _ hrest).reads hsync
  have hfinished : f.finished =
      method :: flags :: (body ++ last ++ Bytes.bigEndian 4 (adler32 content)) := by
    rw [he, hs]
    rfl
  rw [hfinished]
  apply inflate?_of_reads hh ht
  rw [Bits.ofBytes_append, Bits.ofBytes_append, hbody, hbits]
  simpa only [syncHeader, List.append_assoc] using hall

end Flushes

/-- The encoder of this library answers so. -/
theorem flushes_deflate (content : Bytes) : Flushes (deflate content) content := by
  obtain ⟨m, hm, hdata⟩ := Bits.ofBytes_toBytes (dataBits content ++ syncHeader)
  obtain ⟨n, hn, hlast⟩ := Bits.ofBytes_toBytes ([true, true, false] ++ fixedWord endOfBlock)
  have hd8 := congrArg List.length hdata
  rw [Bits.length_ofBytes] at hd8
  constructor
  · refine ⟨0x78, 0xDA, Bits.toBytes (dataBits content ++ syncHeader) ++ marker,
      List.replicate m false, rfl, by decide, by rwa [List.length_replicate], ?_⟩
    rw [Bits.ofBytes_append, hdata, List.append_assoc, List.append_assoc]
    apply blocks_dataBits
    rw [← List.append_assoc, ← List.append_assoc, ← hdata, List.length_append,
      Bits.length_ofBytes, Bits.length_ofBytes]
    omega
  · refine ⟨Bits.toBytes ([true, true, false] ++ fixedWord endOfBlock), List.replicate n false,
      rfl, by rwa [List.length_replicate], ?_⟩
    have hb := readBlock?_fixed true (writes_nil content.reverse) (List.replicate n false)
    rwa [List.flatMap_nil, List.nil_append, ← List.append_assoc, ← hlast] at hb

end SpanMetrics.Zlib
