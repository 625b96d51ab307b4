import SpanMetrics.Histogram.Error
import SpanMetrics.Histogram.Layout

/-!
# Histograms

A histogram counts latencies by bucket. Only the buckets in use are kept, in increasing order, so
two histograms of one precision are equal exactly when all their counts agree.
-/
namespace SpanMetrics

structure SlotCount where
  slot : Nat
  count : Nat
deriving DecidableEq, Repr

structure Histogram where
  precision : Precision
  counts : List SlotCount
  increasing : counts.Pairwise (·.slot < ·.slot)
  positive : ∀ c ∈ counts, 0 < c.count
deriving DecidableEq

namespace Histogram

def empty (p : Precision) : Histogram := ⟨p, [], .nil, by simp⟩

instance : Inhabited Histogram := ⟨empty .standard⟩

def bump (s : Nat) : List SlotCount → List SlotCount
  | [] => [⟨s, 1⟩]
  | c :: rest =>
    if s = c.slot then ⟨s, c.count + 1⟩ :: rest
    else if s < c.slot then ⟨s, 1⟩ :: c :: rest
    else c :: bump s rest

theorem mem_slot_bump {s t : Nat} {counts : List SlotCount} :
    t ∈ (bump s counts).map SlotCount.slot ↔ t = s ∨ t ∈ counts.map SlotCount.slot := by
  induction counts with
  | nil => simp [bump]
  | cons c rest ih =>
    simp only [bump]
    split
    · next h => simp [h]
    · split
      · simp
      · simp only [List.map_cons, List.mem_cons, ih]
        grind

theorem increasing_bump {s : Nat} {counts : List SlotCount}
    (h : counts.Pairwise (·.slot < ·.slot)) : (bump s counts).Pairwise (·.slot < ·.slot) := by
  induction counts with
  | nil => simp [bump]
  | cons c rest ih =>
    obtain ⟨hc, hr⟩ := List.pairwise_cons.1 h
    simp only [bump]
    split
    · next he => exact List.pairwise_cons.2 ⟨fun d hd => by simpa [he] using hc d hd, hr⟩
    · split
      · next hlt =>
        refine List.pairwise_cons.2 ⟨fun d hd => ?_, h⟩
        rcases List.mem_cons.1 hd with rfl | hd
        · exact hlt
        · exact Nat.lt_trans hlt (hc d hd)
      · next hne hnlt =>
        refine List.pairwise_cons.2 ⟨fun d hd => ?_, ih hr⟩
        have hd' := mem_slot_bump.1 (List.mem_map_of_mem (f := SlotCount.slot) hd)
        rcases hd' with hd' | hd'
        · omega
        · obtain ⟨e, he, hes⟩ := List.mem_map.1 hd'
          have := hc e he
          omega

theorem positive_bump {s : Nat} {counts : List SlotCount} (h : ∀ c ∈ counts, 0 < c.count) :
    ∀ c ∈ bump s counts, 0 < c.count := by
  induction counts with
  | nil => simp [bump]
  | cons c rest ih =>
    have hr : ∀ d ∈ rest, 0 < d.count := fun d hd => h d (List.mem_cons_of_mem _ hd)
    simp only [bump]
    split
    · simpa using hr
    · split
      · simpa using ⟨h c (List.mem_cons_self ..), hr⟩
      · simpa using ⟨h c (List.mem_cons_self ..), ih hr⟩

/-- Counts one latency. A value without a bucket is refused. -/
def record (h : Histogram) (micros : Nat) : Except HistogramError Histogram :=
  if micros < ceiling then
    .ok ⟨h.precision, bump (slot h.precision micros) h.counts, increasing_bump h.increasing,
      positive_bump h.positive⟩
  else .error (.record micros)

def countAt (h : Histogram) (s : Nat) : Nat :=
  ((h.counts.find? (·.slot = s)).map (·.count)).getD 0

def total (h : Histogram) : Nat := h.counts.foldr (fun c n => c.count + n) 0

end Histogram
end SpanMetrics
