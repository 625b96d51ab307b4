import SpanMetrics.Histogram.Creation
import SpanMetrics.Proofs.Histogram.Payload
import SpanMetrics.Proofs.Table.Values

/-!
# Layouts have room

The layout of every precision ends with the power of two beyond an hour, and so a
latency has a slot in it exactly if it has a bucket. With this the steps of a
recording come to what `record` does: an entry can always be made, and looking for it
a second time finds the one that was made.
-/
namespace SpanMetrics

namespace Histogram

theorem doublings_highest (p : Precision) :
    doublings highest 64 (2 <<< (halfBits p + Nat.log2 lowest)) = 31 - halfBits p := by
  revert p
  decide +kernel

/-- A value has a slot of the layout exactly if it is below the power of two beyond an
hour, at every precision. -/
theorem slot_lt_slots_iff (p : Precision) (value : Nat) :
    slot p value < slots lowest highest p ↔ value < ceiling := by
  have hh := halfBits_le p
  have he : halfBits p + (31 - halfBits p) + 1 = 32 := by omega
  rw [slots, doublings_highest, slot_lt_iff, he]
  rfl

theorem recordInSlot_eq (h : Histogram) (micros : Nat) :
    h.recordInSlot micros = h.record micros := by
  simp only [recordInSlot, record, increment, slot_lt_slots_iff]

theorem layout_eq (p : Precision) : layout lowest highest p.val = .ok p := by
  revert p
  decide +kernel

end Histogram

/-- Every precision has a layout for the bounds. -/
theorem HistogramEntry.create_eq (name : String) (p : Precision) :
    create name p.val = .ok ⟨name, .empty p⟩ := by
  rw [create, Histogram.layout_eq]

namespace HistogramTable

variable {t : HistogramTable} {name : String} {e : HistogramEntry}

theorem put_put (t : HistogramTable) (name : String) (e e' : HistogramEntry) :
    (t.put name e).put name e' = t.put name e' := by
  simp only [put, Table.alter_alter]

theorem put_of_get? (h : t.entries.get? name = some e) : t.put name e = t := by
  rw [put, Table.alter_of_get? h]

theorem get?_put (t : HistogramTable) (name : String) (e : HistogramEntry) :
    (t.put name e).entries.get? name = some e := by
  rw [put, Table.get?_alter, if_pos rfl]

/-- A latency for an entry that is there is recorded in it. -/
theorem count_eq (h : t.entries.get? name = some e) (d : Duration) :
    t.count name d.micros = t.record name d := by
  have he : t.entry name = e := by rw [entry, h, Option.getD_some]
  unfold count record
  rw [h, he]
  dsimp only
  rw [Histogram.recordInSlot_eq]
  cases e.histogram.record d.micros with
  | ok h' => rfl
  | error refusal =>
    dsimp only
    rw [put_of_get? h]

/-- Making the empty entry first makes no difference. -/
theorem record_put_empty (h : t.entries.get? name = none) (d : Duration) :
    (t.put name ⟨name, .empty t.precision⟩).record name d = t.record name d := by
  have he : (t.put name ⟨name, .empty t.precision⟩).entry name = t.entry name := by
    rw [entry, get?_put, entry, h]
    rfl
  unfold record
  rw [he]
  cases (t.entry name).histogram.record d.micros <;> simp only [put_put]

/-- The steps of a recording never end with an entry that could not be made. -/
theorem recordStepwise_eq (t : HistogramTable) (name : String) (d : Duration) :
    t.recordStepwise name d = t.record name d := by
  unfold recordStepwise ensure
  cases h : t.entries.get? name with
  | some e => exact count_eq h d
  | none =>
    rw [HistogramEntry.create_eq]
    exact (count_eq (t.get?_put name _) d).trans (record_put_empty h d)

end HistogramTable
end SpanMetrics
