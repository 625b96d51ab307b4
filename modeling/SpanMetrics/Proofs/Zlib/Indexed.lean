import SpanMetrics.Proofs.Zlib.Encoder
import SpanMetrics.Zlib.Indexed

/-!
# No index is out of range

Settling with indices never asks for a difference below zero or for a place that is not
there, as long as the finished stream begins with the flushed one: the streams that are
too short for a step are returned before it. So it has a value, which is the settled
stream.
-/
namespace SpanMetrics.Zlib

theorem sub?_of_le {a b : Nat} (h : b ≤ a) : sub? a b = some (a - b) := if_pos h

theorem slice?_of_le {bytes : Bytes} {start stop : Nat} (h : start ≤ stop)
    (hs : stop ≤ bytes.length) : slice? bytes start stop = some ((bytes.take stop).drop start) :=
  if_pos ⟨h, hs⟩

theorem setBit?_of_lt {place : Nat} {bytes : Bytes} (h : place / 8 < bytes.length) :
    setBit? place bytes = some (setBit place bytes) := if_pos h

variable {f : Flushed}

/-- The places from the first to the last one, the last one first. -/
theorem reverse_places {synced : Bytes} (h : 8 ≤ synced.length) :
    let markerBit := (synced.length - marker.length) * 8
    (List.range' (markerBit - 10) (markerBit - 3 + 1 - (markerBit - 10))).reverse =
      candidatePlaces synced := by
  intro markerBit
  have hbit : 32 ≤ markerBit := by
    show 32 ≤ (synced.length - 4) * 8
    omega
  obtain ⟨k, hk⟩ := Nat.exists_eq_add_of_le' (show 10 ≤ markerBit by omega)
  have hcount : markerBit - 3 + 1 - (markerBit - 10) = 8 := by omega
  show _ = (List.range' 3 8).map fun back => markerBit - back
  rw [hcount, hk, Nat.add_sub_cancel]
  simp [List.range']

/-- Every place that is tried is a bit of the flushed stream. -/
theorem candidatePlaces_lt {synced : Bytes} (h : 8 ≤ synced.length) :
    ∀ place ∈ candidatePlaces synced, place / 8 < synced.length := by
  intro place hp
  obtain ⟨back, hb, rfl⟩ := List.mem_map.1 hp
  have hm : marker.length = 4 := rfl
  rw [List.mem_range'_1] at hb
  omega

/-- Trying places is a search among the marked streams. -/
theorem tryPlaces?_eq (hp : f.synced <+: f.finished) (content : Bytes) {places : List Nat}
    (h : ∀ place ∈ places, place / 8 < f.synced.length) :
    tryPlaces? f.synced.length f.finished (lastBytes 4 f.finished) content places =
      some (((places.map (marked f)).find?
        (fun stream => inflate? stream = some content)).getD f.finished) := by
  have hslice : slice? f.finished 0 f.synced.length = some f.synced := by
    rw [slice?_of_le (Nat.zero_le _) hp.length_le, List.drop_zero, ← List.prefix_iff_eq_take.1 hp]
  induction places with
  | nil => rfl
  | cons place places ih =>
    obtain ⟨hplace, hplaces⟩ := List.forall_mem_cons.1 h
    rw [tryPlaces?, hslice]
    simp only [Option.bind_eq_bind, Option.bind_some, setBit?_of_lt hplace, ih hplaces,
      List.map_cons, List.find?_cons]
    by_cases hs : inflate? (marked f place) = some content
    · rw [if_pos (by exact hs), decide_eq_true hs]
      rfl
    · rw [if_neg (by exact hs), decide_eq_false hs]

/-- No step asks for what is not there. -/
theorem settle?_eq (hp : f.synced <+: f.finished) (content : Bytes) :
    settle? f.synced.length f.finished content = some (settle f content) := by
  have hm : marker.length = 4 := rfl
  have hh : header.length = 2 := rfl
  unfold settle? settle
  by_cases hshort : f.synced.length < header.length + 2 + marker.length
  · rw [if_pos hshort, if_pos (.inl hshort)]
    rfl
  by_cases hfinished : f.finished.length < f.synced.length + 4
  · rw [if_neg hshort, if_pos hfinished, if_pos (.inr (.inl hfinished))]
    rfl
  have hlong : 8 ≤ f.synced.length := by omega
  have hstart : sub? f.synced.length marker.length = some (f.synced.length - marker.length) :=
    sub?_of_le (by omega)
  have hend : slice? f.finished (f.synced.length - marker.length) f.synced.length =
      some (lastBytes 4 f.synced) := by
    rw [slice?_of_le (Nat.sub_le _ _) hp.length_le, ← List.prefix_iff_eq_take.1 hp, hm, lastBytes]
  have hcheck : sub? f.finished.length 4 = some (f.finished.length - 4) := sub?_of_le (by omega)
  have htrailer : slice? f.finished (f.finished.length - 4) f.finished.length =
      some (lastBytes 4 f.finished) := by
    rw [slice?_of_le (Nat.sub_le _ _) le_rfl, List.take_length, lastBytes]
  have hfirst : sub? ((f.synced.length - marker.length) * 8) 10 =
      some ((f.synced.length - marker.length) * 8 - 10) := sub?_of_le (by omega)
  have hlast : sub? ((f.synced.length - marker.length) * 8) 3 =
      some ((f.synced.length - marker.length) * 8 - 3) := sub?_of_le (by omega)
  have htry := tryPlaces?_eq hp content (candidatePlaces_lt hlong)
  have hplaces := reverse_places hlong
  simp only [hshort, hfinished, if_false, false_or, hstart, hend, hcheck, htrailer, hfirst, hlast,
    Option.bind_eq_bind, Option.bind_some, hplaces, htry]
  exact (apply_ite some _ _ _).symm

end SpanMetrics.Zlib
