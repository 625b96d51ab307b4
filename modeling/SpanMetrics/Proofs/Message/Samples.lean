import SpanMetrics.Proofs.Aggregation.Latencies
import SpanMetrics.Proofs.Histogram.Ceiling
import SpanMetrics.Proofs.Message.Distinction

/-!
# Histograms without samples

A refused latency leaves every entry as it was, but the entry of its name is made before
the latency is tried. So it is there afterwards, with no samples if it is new. It is
drained and gets into a message as any other one, and a histogram without samples tells
that latencies came under its name and that all of them were refused.
-/
namespace SpanMetrics

open Bson (Document)

namespace Histogram

/-- The histogram has no bucket for a latency. -/
def Refuses (h : Histogram) (d : Duration) : Prop := ∃ cause, h.record d.micros = .error cause

theorem refuses_iff (h : Histogram) (d : Duration) : h.Refuses d ↔ 2 ^ 32 ≤ d.nanos / 1000 := by
  rw [← Nat.not_lt, ← d.micros_lt_ceiling_iff, Refuses, record]
  split
  · next hd => simp [hd]
  · next hd => simp [hd]

theorem Refuses.observe_eq {h : Histogram} {d : Duration} (hr : h.Refuses d) : h.observe d = h := by
  apply observe_of_le
  rw [← Nat.not_lt, d.micros_lt_ceiling_iff, Nat.not_lt]
  exact (h.refuses_iff d).1 hr

/-- There are no samples exactly if all latencies were refused. -/
theorem total_gather_eq_zero_iff (p : Precision) (ds : List Duration) :
    (gather p ds).total = 0 ↔ ∀ d ∈ ds, 2 ^ 32 ≤ d.nanos / 1000 := by
  rw [total_gather, List.countP_eq_zero]
  simp only [decide_eq_true_eq, Duration.micros_lt_ceiling_iff, Nat.not_lt]

end Histogram

/-- The names of a table after a latency, in some order. -/
theorem HistogramTable.keys_record_perm (t : HistogramTable) (name : String) (d : Duration) :
    (t.record name d).value.entries.keys.Perm
      (if name ∈ t.entries.keys then t.entries.keys else name :: t.entries.keys) := by
  rw [value_record, put, Table.keys_alter]
  split
  · exact .refl _
  · exact List.perm_append_singleton name t.entries.keys

/-- A refused latency leaves what is there under every name, and adds an empty entry under
its own name if there is none. -/
theorem HistogramTable.get?_record_of_refuses (t : HistogramTable) {name : String} {d : Duration}
    (h : (t.entry name).histogram.Refuses d) (key : String) :
    (t.record name d).value.entries.get? key =
      if key = name ∧ name ∉ t.entries.keys then some ⟨name, .empty t.precision⟩
      else t.entries.get? key := by
  rw [get?_record, h.observe_eq]
  by_cases hk : key = name
  · subst hk
    rw [if_pos rfl]
    cases hg : t.entries.get? key with
    | some e =>
      have hm : key ∈ t.entries.keys := t.entries.mem_keys_iff.2 ⟨e, hg⟩
      rw [if_neg fun hc => hc.2 hm, entry, hg]
      rfl
    | none =>
      have hm : key ∉ t.entries.keys := by
        rw [Table.mem_keys_iff, hg]
        simp
      rw [if_pos ⟨rfl, hm⟩, entry, hg]
      rfl
  · rw [if_neg hk, if_neg fun hc => hk hc.1]

namespace Message

variable {z : Zlib.Encoder} {c : Cycle} {context : MessageContext} {document : Document}

/-- A reader gets back all histograms of the message, if they were gathered. -/
theorem Layout.forall₂_histogram? (h : Layout z c context document) {p : Precision}
    (hg : ∀ e ∈ c.histograms, ∃ ds, e.histogram = .gather p ds) :
    List.Forall₂ (fun e entry => histogram? entry = some e.histogram)
      (c.histograms.filter fun e => (e.wire z.compress).isOk) (listed document "histograms") := by
  have hread : ∀ e ∈ c.histograms.filter (fun e => (e.wire z.compress).isOk), ∀ entry,
      TellsHistogram z e entry → histogram? entry = some e.histogram := by
    intro e he entry ht
    obtain ⟨hmem, -⟩ := List.mem_filter.1 he
    obtain ⟨ds, hds⟩ := hg e hmem
    obtain ⟨wire, hw, -⟩ := ht.value
    apply ht.histogram
    rw [HistogramEntry.wire, hds] at hw
    rw [hds]
    exact Histogram.Wire.gather_sized_of_encodeWith p hw
  have ht := h.listed_histograms
  rw [List.forall₂_iff_zip] at ht ⊢
  exact ⟨ht.1, fun hm => hread _ (List.of_mem_zip hm).1 _ (ht.2 hm)⟩

end Message

namespace Aggregation

/-- A refused latency leaves the entry of every name as it was, and makes an empty one for
its own name if there was none; so the names stay the same, or this one is added to them.
An entry that is drained has a name that was used since the last drain, and it has a sample
unless all latencies under this name were refused; and a reader of the message gets back
just the histograms that were drained and have a wire form. -/
theorem refusal_keeps_entries (z : Zlib.Encoder) (requested capacity : Nat)
    (ops : List Operation) (context : MessageContext) :
    let s := ((new requested capacity).value.performAll ops).value.2
    let calls := (new requested capacity).value.histogramCallsAll ops
    let drained := s.histograms.drain.1
    (∀ name d, (s.histograms.entry name).histogram.Refuses d →
      let before := s.histograms.entries
      let after := (s.histograms.record name d).value
      after.precision = s.histograms.precision ∧
      (∀ key, after.entries.get? key =
        if key = name ∧ name ∉ before.keys then some ⟨name, .empty s.histograms.precision⟩
        else before.get? key) ∧
      after.entries.keys.Perm (if name ∈ before.keys then before.keys else name :: before.keys)) ∧
    (∀ name d, (s.histograms.entry name).histogram.Refuses d ↔ 2 ^ 32 ≤ d.nanos / 1000) ∧
    (∀ e ∈ drained, HistogramTable.latencies e.name calls ≠ [] ∧
      (e.histogram.total = 0 ↔
        ∀ d ∈ HistogramTable.latencies e.name calls, 2 ^ 32 ≤ d.nanos / 1000)) ∧
    ∀ snapshot, (s.assembleWith z.compress context).value.1 = .ok snapshot →
      (snapshot.message.length < 2 ^ 31 → (Bson.read? snapshot.message).isSome) ∧
      ∀ document, Bson.read? snapshot.message = some document →
        List.Forall₂ (fun e entry => Message.histogram? entry = some e.histogram)
          (drained.filter fun e => (e.wire z.compress).isOk)
          (Message.listed document "histograms") := by
  intro s calls drained
  have hholds : HistogramTable.Holds (.ofRequest requested) calls s.histograms :=
    holds_histograms requested capacity ops
  refine ⟨fun name d h => ?_, fun name d => Histogram.refuses_iff _ d, fun e he => ?_,
    fun snapshot hs => ⟨fun hl => ?_, fun document hd => ?_⟩⟩
  · exact ⟨s.histograms.precision_record name d, s.histograms.get?_record_of_refuses h,
      s.histograms.keys_record_perm name d⟩
  · obtain ⟨hne, hg⟩ := hholds.of_mem_drain he
    rw [hg]
    exact ⟨hne, Histogram.total_gather_eq_zero_iff _ _⟩
  · rw [assembled_eq] at hs
    rw [Cycle.read?_of_snapshot hs (by omega)]
    rfl
  · rw [assembled_eq] at hs
    obtain rfl := Cycle.eq_document_of_read? hs hd
    exact (Message.layout_document z s.drain.value.1 context).forall₂_histogram?
      fun e he => ⟨_, (hholds.of_mem_drain he).2⟩

/-- Three latencies, of which two were refused. Of the two histograms in the message one
has no samples. -/
theorem refusal_keeps_entries_of_three :
    let ops : List Operation := [.recordLatency "a" ⟨1500000⟩,
      .recordLatency "a" ⟨5000000000000000⟩, .recordLatency "b" ⟨5000000000000000⟩]
    let s := ((new 2 10).value.performAll ops).value.2
    let context : MessageContext := ⟨default, 30, .none, [], 0⟩
    s.histograms.drain.1.map (fun e => (e.name, e.histogram.total)) = [("a", 1), ("b", 0)] ∧
    ∃ snapshot document, (s.assemble context).value.1 = .ok snapshot ∧
      Bson.read? snapshot.message = some document ∧
      List.Forall₂ (fun e entry => Message.histogram? entry = some e.histogram)
        (s.histograms.drain.1.filter fun e => (e.wire Zlib.compress).isOk)
        (Message.listed document "histograms") := by
  intro ops s context
  have hb : s.drain.value.1.badName? = none := by decide +kernel
  have hs := assembled_of_badName? Zlib.encoder.compress context hb
  have hl : (Bson.enclose
      (Bson.fieldsBytes (s.drain.value.1.document Zlib.compress context))).length < 2 ^ 31 := by
    decide +kernel
  obtain ⟨-, -, -, hmessage⟩ := refusal_keeps_entries Zlib.encoder 2 10 ops context
  obtain ⟨hread, htold⟩ := hmessage _ hs
  obtain ⟨document, hd⟩ := Option.isSome_iff_exists.1 (hread hl)
  exact ⟨by decide +kernel, _, document, hs, hd, htold document hd⟩

/-- A latency that is refused under a new name makes an entry for it. The entry is
drained, and gets into the message, without samples. -/
theorem refused_latency_makes_entry :
    let t := (HistogramTable.new 2).value
    let late : Duration := ⟨5000000000000000⟩
    let s := ((new 2 10).value.performAll [.recordLatency "a" late]).value.2
    let context : MessageContext := ⟨default, 30, .none, [], 0⟩
    (t.entry "a").histogram.Refuses late ∧ t.entries.keys = [] ∧
      (t.record "a" late).value.entries.keys = ["a"] ∧
      s.histograms.drain.1.map (·.histogram.total) = [0] ∧
      ∃ snapshot document entry h, (s.assemble context).value.1 = .ok snapshot ∧
        Bson.read? snapshot.message = some document ∧
        Message.listed document "histograms" = [entry] ∧
        Message.histogram? entry = some h ∧ h.total = 0 := by
  intro t late s context
  have hb : s.drain.value.1.badName? = none := by decide +kernel
  have hs := assembled_of_badName? Zlib.encoder.compress context hb
  have hl : (Bson.enclose
      (Bson.fieldsBytes (s.drain.value.1.document Zlib.compress context))).length < 2 ^ 32 := by
    decide +kernel
  have hd :=
    Cycle.read?_of_snapshot ((s.assembled_eq Zlib.encoder.compress context).symm.trans hs) hl
  have hempty : s.drain.value.1.histograms = [⟨"a", .gather 2 []⟩] := by decide +kernel
  have hsized : (Histogram.gather 2 []).Sized := Histogram.gather_sized 2 (by decide)
  have hlisted := (Message.layout_document Zlib.encoder s.drain.value.1 context).forall₂_histogram?
    fun e he => ⟨[], by rw [hempty] at he; rw [List.mem_singleton.1 he]⟩
  rw [hempty, List.filter_eq_self.2 fun e he => ?_] at hlisted
  · obtain ⟨entry, entries, hentry, hrest, he⟩ := List.forall₂_cons_left_iff.1 hlisted
    rw [List.forall₂_nil_left_iff.1 hrest] at he
    refine ⟨(Histogram.refuses_iff _ _).2 (by decide), rfl, by decide +kernel, by decide +kernel,
      _, _, entry, _, hs, hd, he, hentry, by decide⟩
  · rw [List.mem_singleton.1 he]
    exact Message.isOk_wire Zlib.encoder hsized

end Aggregation
end SpanMetrics
