import SpanMetrics.Proofs.Aggregation.Steps
import SpanMetrics.Proofs.Message.Layout

/-!
# What one entry does to a message

A histogram without a wire form is left out of a message and the other entries are
there. A counter with a NUL character in the cut name of a tag has no document
either, but it is not left out: the message fails, and by then the state has given
out the whole cycle. So an entry stays confined exactly if there is no such counter.
-/
namespace SpanMetrics

open Bson (Value Document)

/-- A counter whose document can be written. -/
def Counter.Writable (c : Counter) : Prop :=
  ∀ tag ∈ c.tags.toList, '\x00' ∉ tag.name.toList.take 64

instance (c : Counter) : Decidable c.Writable := inferInstanceAs (Decidable (∀ _ ∈ _, _))

theorem keyOk_truncated (tag : Tag) :
    (!Bson.keyOk tag.truncated.name) = false ↔ '\x00' ∉ tag.name.toList.take 64 := by
  simp [Bson.keyOk, Tag.truncated, Text.cut, Tag.nameLimit]

theorem TagSet.badName?_eq_none_iff (tags : TagSet) :
    tags.badName? = none ↔ ∀ tag ∈ tags.toList, '\x00' ∉ tag.name.toList.take 64 := by
  unfold badName? truncated
  simp only [List.map_map, List.find?_eq_none, List.forall_mem_map, Function.comp_apply,
    Bool.not_eq_true, keyOk_truncated]

theorem Cycle.badName?_eq_none_iff (c : Cycle) :
    c.badName? = none ↔ ∀ counter ∈ c.counters, counter.Writable := by
  unfold badName?
  simp only [List.findSome?_eq_none_iff, TagSet.badName?_eq_none_iff]
  rfl

namespace Message

/-- A message lists the counters that can be written and the histograms that have a
wire form. -/
def Lists (z : Zlib.Encoder) (c : Cycle) (message : Bytes) : Prop :=
  ∃ d, Bson.write d = .ok message ∧
    (∃ metrics counters : List Document,
      Bson.field? d "measurements" = some (Bson.arrayOf ((metrics ++ counters).map .document)) ∧
      List.Forall₂ TellsCounter (c.counters.filter (·.Writable)) counters) ∧
    ∃ entries : List Document,
      Bson.field? d "histograms" = some (Bson.arrayOf (entries.map .document)) ∧
      List.Forall₂ (TellsHistogram z) (c.histograms.filter fun e => (e.wire z.compress).isOk) entries

theorem lists_of_snapshot {z : Zlib.Encoder} {c : Cycle} {context : MessageContext} {s : Snapshot}
    (h : (c.snapshotWith z.compress context).value = .ok s) : Lists z c s.message := by
  obtain ⟨hb, hw⟩ := Cycle.write_of_snapshot h
  have hlayout := layout_document z c context
  obtain ⟨counters, hm, hc⟩ := hlayout.measurements
  have hf : c.counters.filter (·.Writable) = c.counters := by
    apply List.filter_eq_self.2
    intro counter hmem
    exact decide_eq_true ((c.badName?_eq_none_iff).1 hb counter hmem)
  refine ⟨c.document z.compress context, hw,
    ⟨(metrics c context).map metricFields, counters, hm, ?_⟩, hlayout.histograms⟩
  rw [hf]
  exact hc

end Message

namespace Aggregation

section

variable (compress : Bytes → Bytes) (s : Aggregation) (context : MessageContext)

theorem assembled_eq : (s.assembleWith compress context).value.1 =
    (s.drain.value.1.snapshotWith compress context).value := by
  simp only [assembleWith, Logged.value_bind, Logged.value_pure]

theorem badName?_drain_eq_none_iff :
    s.drain.value.1.badName? = none ↔ ∀ c ∈ s.counters.values, c.Writable := by
  rw [Cycle.badName?_eq_none_iff, counters_drain]

variable {s}

/-- A state whose keys can all be written gives a message. -/
theorem assembled_of_badName? (h : s.drain.value.1.badName? = none) :
    (s.assembleWith compress context).value.1 =
      .ok ⟨Bson.enclose (Bson.fieldsBytes (s.drain.value.1.document compress context)),
        s.drain.value.1.histograms.map (Message.outcome (·.wire compress))⟩ := by
  rw [assembled_eq, Cycle.value_snapshot, h, Option.elim_none]

end

/-- Every entry of the state that can be encoded gets into the message. -/
def Confined (z : Zlib.Encoder) (s : Aggregation) (context : MessageContext) : Prop :=
  ∃ snapshot, (s.assembleWith z.compress context).value.1 = .ok snapshot ∧
    Message.Lists z s.drain.value.1 snapshot.message

theorem confined_of_writable (z : Zlib.Encoder) {s : Aggregation}
    (h : ∀ c ∈ s.counters.values, c.Writable) (context : MessageContext) :
    s.Confined z context := by
  have hs := assembled_of_badName? z.compress context (s.badName?_drain_eq_none_iff.2 h)
  exact ⟨_, hs, Message.lists_of_snapshot ((s.assembled_eq z.compress context).symm.trans hs)⟩

/-- Entries stay confined exactly if all counters can be written. If one cannot, the
message fails with the name of a tag, and in every case the state is left empty. -/
theorem confined_iff (z : Zlib.Encoder) (s : Aggregation) (context : MessageContext) :
    (s.Confined z context ↔ ∀ c ∈ s.counters.values, c.Writable) ∧
    (¬s.Confined z context →
      ∃ name, (s.assembleWith z.compress context).value.1 = .error (.encode (.nulInKey name))) ∧
    (s.assembleWith z.compress context).value.2 =
      ⟨.new s.registry.staged, .empty, ⟨s.histograms.precision, .empty⟩, .zero, .zero⟩ := by
  refine ⟨⟨?_, fun h => confined_of_writable z h context⟩, ?_, rfl⟩
  · rintro ⟨snapshot, hs, -⟩
    rw [assembled_eq] at hs
    exact s.badName?_drain_eq_none_iff.1 (Cycle.write_of_snapshot hs).1
  · intro h
    rw [assembled_eq, Cycle.value_snapshot]
    cases hb : s.drain.value.1.badName? with
    | none => exact absurd (confined_of_writable z (s.badName?_drain_eq_none_iff.1 hb) context) h
    | some name => exact ⟨name, rfl⟩

/-- The second counter could be written, but it goes with the first one. -/
theorem unwritable_counter_loses_cycle :
    let s := ((Aggregation.new 2 10).value.performAll
      [.recordCounter ⟨"m", .ofList [⟨"k\x00", "v"⟩], .zero, 1, true⟩,
        .recordCounter ⟨"n", .ofList [⟨"k", "v"⟩], .zero, 1, true⟩]).value.2
    let context : MessageContext := ⟨default, 30, .none, [], 0⟩
    (∃ c ∈ s.counters.values, c.name = "n" ∧ c.Writable) ∧ ¬s.Confined Zlib.encoder context ∧
      (s.assemble context).value.1 = .error (.encode (.nulInKey "k\x00")) ∧
      (s.assemble context).value.2.counters.values = [] := by
  intro s context
  have hb : s.drain.value.1.badName? = some "k\x00" := by decide +kernel
  have hs : (s.assembleWith Zlib.encoder.compress context).value.1 =
      .error (.encode (.nulInKey "k\x00")) := by
    rw [assembled_eq, Cycle.value_snapshot, hb, Option.elim_some]
  refine ⟨by decide +kernel, ?_, hs, rfl⟩
  rintro ⟨snapshot, h, -⟩
  rw [hs] at h
  cases h

end Aggregation
end SpanMetrics
