import SpanMetrics.Proofs.Aggregation.Counts
import SpanMetrics.Proofs.Message.Confinement
import SpanMetrics.Proofs.Message.Counts

/-!
# When a snapshot fails

The only thing that can fail a snapshot is the cut name of a tag of a counter, and the
failure tells the first one in the order of writing: counters as they were drained, the
tags of each in their order. Every other text of a message stands at a value. A response
has tags with fixed names, so a state that no counter was recorded in by hand always
gives a message.
-/
namespace SpanMetrics

/-- A tag whose cut name cannot be written comes first among those of a set. -/
def TagSet.FailsAt (tags : TagSet) (tag : Tag) : Prop :=
  '\x00' ∈ tag.name.toList.take 64 ∧
    ∃ earlier later, tags.toList = earlier ++ tag :: later ∧
      ∀ other ∈ earlier, '\x00' ∉ other.name.toList.take 64

/-- A tag whose cut name cannot be written comes first among those of all counters. -/
def Cycle.FailsAt (c : Cycle) (tag : Tag) : Prop :=
  ∃ before counter after, c.counters = before ++ counter :: after ∧ counter.tags.FailsAt tag ∧
    ∀ other ∈ before, other.Writable

theorem TagSet.badName?_eq_find? (tags : TagSet) :
    tags.badName? =
      (tags.toList.find? ('\x00' ∈ ·.name.toList.take 64)).map (Text.cut 64 ·.name) := by
  have hbad : (!Bson.keyOk ·) ∘ ((·.name) ∘ Tag.truncated) =
      fun tag => decide ('\x00' ∈ tag.name.toList.take 64) := by
    funext tag
    rw [Bool.eq_iff_iff, decide_eq_true_eq, ← not_iff_not, ← keyOk_truncated, Bool.not_eq_true]
    rfl
  rw [badName?, truncated, List.map_map, List.find?_map, hbad]
  rfl

theorem TagSet.badName?_eq_some_iff (tags : TagSet) (name : String) :
    tags.badName? = some name ↔ ∃ tag, tags.FailsAt tag ∧ name = Text.cut 64 tag.name := by
  rw [badName?_eq_find?, Option.map_eq_some_iff]
  apply exists_congr
  intro tag
  rw [List.find?_eq_some_iff_append, FailsAt, decide_eq_true_eq, eq_comm (a := name)]
  simp only [Bool.not_eq_true', decide_eq_false_iff_not]

theorem Counter.writable_iff (c : Counter) : c.Writable ↔ c.tags.badName? = none :=
  c.tags.badName?_eq_none_iff.symm

namespace Cycle

theorem badName?_eq_some_iff (c : Cycle) (name : String) :
    c.badName? = some name ↔ ∃ tag, c.FailsAt tag ∧ name = Text.cut 64 tag.name := by
  simp only [badName?, List.findSome?_eq_some_iff, TagSet.badName?_eq_some_iff,
    ← Counter.writable_iff]
  constructor
  · rintro ⟨before, counter, after, hc, ⟨tag, ht, hn⟩, hb⟩
    exact ⟨tag, ⟨before, counter, after, hc, ht, hb⟩, hn⟩
  · rintro ⟨tag, ⟨before, counter, after, hc, ht, hb⟩, hn⟩
    exact ⟨before, counter, after, hc, ⟨tag, ht, hn⟩, hb⟩

/-- What fails a cycle is read off the cut names of its tags. -/
theorem badName?_eq_of_cutNames {c other : Cycle}
    (h : (other.counters.map fun counter => counter.tags.toList.map (Text.cut 64 ·.name)) =
      c.counters.map fun counter => counter.tags.toList.map (Text.cut 64 ·.name)) :
    other.badName? = c.badName? := by
  have hnames : ∀ cycle : Cycle, cycle.badName? =
      (cycle.counters.map fun counter => counter.tags.toList.map (Text.cut 64 ·.name)).findSome?
        (·.find? (!Bson.keyOk ·)) := by
    intro cycle
    rw [badName?, List.findSome?_map]
    congr 1
    funext counter
    rw [TagSet.badName?, TagSet.truncated, List.map_map]
    rfl
  rw [hnames, hnames, h]

theorem snapshot_eq_error_iff (compress : Bytes → Bytes) (c : Cycle) (context : MessageContext)
    (error : SnapshotError) :
    (c.snapshotWith compress context).value = .error error ↔
      ∃ name, c.badName? = some name ∧ error = .encode (.nulInKey name) := by
  rw [value_snapshot]
  cases c.badName? <;> simp [eq_comm]

theorem exists_snapshot_error_iff (compress : Bytes → Bytes) (c : Cycle)
    (context : MessageContext) :
    (∃ error, (c.snapshotWith compress context).value = .error error) ↔ ¬c.badName? = none := by
  simp only [snapshot_eq_error_iff]
  cases c.badName? <;> simp

end Cycle

namespace Aggregation

/-- Operations other than recordings by hand leave the counters to the responses. -/
theorem ofResponses_perform {s : Aggregation} (h : s.counters.OfResponses) {op : Operation}
    (hop : ∀ update, op ≠ .recordCounter update) :
    (s.perform op).value.2.counters.OfResponses := by
  cases op with
  | recordSpan span =>
    rw [perform_recordSpan, counters_recordSpan]
    exact h.record _
  | recordCounter update => exact absurd rfl (hop update)
  | recordResponse response =>
    rw [perform_recordResponse, counters_recordResponse]
    exact h.record response
  | drainCounters | drain => exact ⟨[], CounterTable.recordResponses_nil _⟩
  | _ => exact h

theorem ofResponses_performAll {s : Aggregation} (h : s.counters.OfResponses)
    {ops : List Operation} (hops : ∀ update, .recordCounter update ∉ ops) :
    (s.performAll ops).value.2.counters.OfResponses := by
  induction ops generalizing s with
  | nil => exact h
  | cons op ops ih =>
    rw [performAll_cons]
    refine ih (ofResponses_perform h fun update he => ?_) fun update hm => ?_
    · exact hops update (he ▸ List.mem_cons_self)
    · exact hops update (List.mem_cons_of_mem _ hm)

end Aggregation

/-- A snapshot fails exactly if there is a NUL character in the cut name of a tag of some
counter, and the failure has the first of these names as it would be written. Nothing
else of the cycle or the context has a say in it, nor the compression of the histograms.
A state that no counter was recorded in by hand gives a message, whatever else was done
with it. -/
theorem Cycle.snapshot_error_iff (compress : Bytes → Bytes) (c : Cycle) (context : MessageContext) :
    (∀ error, (c.snapshotWith compress context).value = .error error ↔
      ∃ tag, c.FailsAt tag ∧ error = .encode (.nulInKey (Text.cut 64 tag.name))) ∧
    ((∃ error, (c.snapshotWith compress context).value = .error error) ↔
      ∃ counter ∈ c.counters, ∃ tag ∈ counter.tags.toList,
        '\x00' ∈ tag.name.toList.take 64) ∧
    (∀ (another : Bytes → Bytes) (other : Cycle) (otherContext : MessageContext),
      ((other.counters.map fun counter => counter.tags.toList.map (Text.cut 64 ·.name)) =
        c.counters.map fun counter => counter.tags.toList.map (Text.cut 64 ·.name)) →
      ∀ error, (other.snapshotWith another otherContext).value = .error error ↔
        (c.snapshotWith compress context).value = .error error) ∧
    ∀ (requested capacity : Nat) (ops : List Operation),
      (∀ update, .recordCounter update ∉ ops) →
      ∃ snapshot, (((Aggregation.new requested capacity).value.performAll ops).value.2.assembleWith
        compress context).value.1 = .ok snapshot := by
  refine ⟨fun error => ?_, ?_, fun another other otherContext h error => ?_,
    fun requested capacity ops hops => ?_⟩
  · rw [snapshot_eq_error_iff]
    constructor
    · rintro ⟨name, hn, rfl⟩
      obtain ⟨tag, ht, rfl⟩ := (c.badName?_eq_some_iff name).1 hn
      exact ⟨tag, ht, rfl⟩
    · rintro ⟨tag, ht, rfl⟩
      exact ⟨_, (c.badName?_eq_some_iff _).2 ⟨tag, ht, rfl⟩, rfl⟩
  · rw [exists_snapshot_error_iff, c.badName?_eq_none_iff]
    simp only [Counter.Writable, not_forall, not_not, exists_prop]
  · rw [snapshot_eq_error_iff, snapshot_eq_error_iff, badName?_eq_of_cutNames h]
  · have hnew : (Aggregation.new requested capacity).value.counters.OfResponses := by
      rw [Aggregation.value_new]
      exact ⟨[], rfl⟩
    obtain ⟨rs, hrs⟩ := Aggregation.ofResponses_performAll hnew hops
    have hvalues := (Aggregation.counters_drain _).trans (congrArg Table.values hrs)
    exact ⟨_, Aggregation.assembled_of_badName? compress context (badName?_of_responses rs hvalues)⟩

/-- NUL characters in names of metrics, in values and beyond the cut do not fail a
snapshot. Of the two names that do, the one that comes first in its set is told. -/
theorem Cycle.snapshot_error_of_three :
    let long := String.ofList (List.replicate 64 'k')
    let good : List Counter := [⟨"m\x00", .ofList [⟨"k", "v\x00"⟩], 1, .zero, true⟩,
      ⟨"m", .ofList [⟨long ++ "\x00", "v"⟩], 1, .zero, true⟩]
    let bad : Counter :=
      ⟨"n", .ofList [⟨"b\x00", "v"⟩, ⟨"a\x00", "w"⟩, ⟨"a", "w"⟩], 1, .zero, true⟩
    let c : Cycle := ⟨good ++ [bad], [], .zero, .zero, false⟩
    let context : MessageContext := ⟨default, 30, .none, [⟨"r\x00", .int32 1⟩], 0⟩
    (c.snapshot context).value = .error (.encode (.nulInKey "a\x00")) ∧
      ∃ snapshot, (((Aggregation.new 2 10).value.performAll
        [.recordSpan ⟨"a\x00", "", ⟨1500000⟩, 200, "G\x00", true⟩]).value.2.assemble
          context).value.1 = .ok snapshot := by
  intro long good bad c context
  obtain ⟨herror, -, -, hok⟩ := snapshot_error_iff Zlib.compress c context
  have htag : bad.tags.FailsAt ⟨"a\x00", "w"⟩ :=
    ⟨by decide, [⟨"a", "w"⟩], [⟨"b\x00", "v"⟩], by decide +kernel, by decide⟩
  have hfails : c.FailsAt ⟨"a\x00", "w"⟩ := ⟨good, bad, [], rfl, htag, by decide +kernel⟩
  refine ⟨(herror _).2 ⟨_, hfails, by decide⟩, hok 2 10 _ fun update hm => ?_⟩
  cases List.mem_singleton.1 hm

end SpanMetrics
