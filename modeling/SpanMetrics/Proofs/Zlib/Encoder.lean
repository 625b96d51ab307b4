import SpanMetrics.Proofs.Zlib.Flush

/-!
# Encoders

What is asked of an encoder: the finished stream of a content is complete and not
much longer than the content. Nothing is asked of the stream after a flush, since
the stream that is marked from it is kept only if it reads back. The encoder of
this library is one of them.
-/
namespace SpanMetrics.Zlib

open Deflate

structure Encoder where
  answers : Bytes → Flushed
  complete : ∀ content, inflate? (answers content).finished = some content
  bounded : ∀ content, (answers content).finished.length ≤ 2 * content.length + 128

/-- The stream of a content, settled from the answers of the encoder. -/
abbrev Encoder.compress (e : Encoder) : Bytes → Bytes := compressWith e.answers

theorem length_setBit (place : Nat) (bytes : Bytes) :
    (setBit place bytes).length = bytes.length := by
  rw [setBit, List.length_modify]

/-- What is settled on: the finished stream, if the flushed one is out of shape or no
place does, or the stream marked at a place that does. -/
theorem settle_cases (f : Flushed) (content : Bytes) :
    (settle f content = f.finished ∧
      (f.synced.length < header.length + 2 + marker.length ∨
        f.finished.length < f.synced.length + 4 ∨ lastBytes 4 f.synced ≠ marker ∨
        ∀ place ∈ candidatePlaces f.synced, inflate? (marked f place) ≠ some content)) ∨
    ∃ place ∈ candidatePlaces f.synced, settle f content = marked f place ∧
      inflate? (marked f place) = some content ∧ f.synced.length + 4 ≤ f.finished.length := by
  unfold settle
  split
  · next hg =>
    refine .inl ⟨rfl, ?_⟩
    rcases hg with hshort | hfinished | hlast
    · exact .inl hshort
    · exact .inr (.inl hfinished)
    · exact .inr (.inr (.inl hlast))
  · next hg =>
    rw [not_or, not_or, Nat.not_lt, Nat.not_lt] at hg
    cases hf : ((candidatePlaces f.synced).map (marked f)).find?
        (fun stream => inflate? stream = some content) with
    | none =>
      refine .inl ⟨rfl, .inr (.inr (.inr fun place hp hi => ?_))⟩
      exact absurd (decide_eq_true hi) (List.find?_eq_none.1 hf _ (List.mem_map_of_mem hp))
    | some stream =>
      obtain ⟨place, hp, rfl⟩ := List.mem_map.1 (List.mem_of_find?_eq_some hf)
      have hi := List.find?_some hf
      exact .inr ⟨place, hp, rfl, of_decide_eq_true hi, hg.2.1⟩

/-- What is settled on reads back if the finished stream does. -/
theorem inflate?_settle {f : Flushed} {content : Bytes}
    (h : inflate? f.finished = some content) : inflate? (settle f content) = some content := by
  rcases settle_cases f content with ⟨he, -⟩ | ⟨place, -, he, hi, -⟩
  · rwa [he]
  · rwa [he]

/-- It is never longer than the finished stream. -/
theorem length_settle_le (f : Flushed) (content : Bytes) :
    (settle f content).length ≤ f.finished.length := by
  rcases settle_cases f content with ⟨he, -⟩ | ⟨place, -, he, -, hl⟩
  · rw [he]
  · rw [he, marked, List.length_append, length_setBit, lastBytes, List.length_drop]
    omega

theorem inflate?_deflate (content : Bytes) :
    inflate? (deflate content).finished = some content := (flushes_deflate content).complete

theorem length_deflate_le (content : Bytes) :
    (deflate content).finished.length ≤ 2 * content.length + 128 := by
  have hd := length_dataBits_le content
  have he : (fixedWord endOfBlock).length ≤ 9 := (length_fixedWord (by decide)).2
  have hp := Bits.length_toBytes_le (dataBits content ++ syncHeader)
  have hl := Bits.length_toBytes_le ([true, true, false] ++ fixedWord endOfBlock)
  simp only [deflate, header, marker, List.length_append, List.length_cons, List.length_nil,
    Bytes.length_bigEndian, syncHeader] at hp hl ⊢
  omega

/-- The encoder of this library. -/
def encoder : Encoder := ⟨deflate, inflate?_deflate, length_deflate_le⟩

end SpanMetrics.Zlib
