import SpanMetrics.Proofs.Aggregation.Overflow
import SpanMetrics.Proofs.Histogram.Wire

/-!
# Requests in any order

Two runs over the same requests in different orders. As long as the registry has room
for all names, a request is counted under its own name wherever it comes, so what is
recorded is the same in both runs up to its order. Histograms do not remember an
order, and a table counts the same under each key; only the first update of a key and
the sums of doubles depend on it.
-/
namespace SpanMetrics

open CompletedSpan

namespace CompletedSpan

variable {limit : Nat} {spans others : List CompletedSpan}

/-- With room for all names the registry takes all of them. -/
theorem admittedNames_of_room (h : (distinctNames spans).length ≤ limit) :
    admittedNames limit spans = distinctNames spans := List.take_of_length_le h

/-- With room for all names a request is counted under its own. -/
theorem transaction_classified_of_room (h : (distinctNames spans).length ≤ limit)
    {span : CompletedSpan} (hs : span ∈ spans) :
    (classified limit spans span).transaction = span.name := by
  rw [classified, admittedNames_of_room h]
  by_cases hu : span.name = Transaction.unknownName
  · rw [if_pos hu, hu]
    rfl
  · have hm : span.name ∈ distinctNames spans := mem_distinctNames.2 ⟨hu, span, hs, rfl⟩
    rw [if_neg hu, if_pos hm]
    rfl

theorem seriesNames_perm (h : spans.Perm others) (hroom : (distinctNames spans).length ≤ limit) :
    (seriesNames limit spans).Perm (seriesNames limit others) := by
  have hnames := distinctNames_perm h
  have hothers : (distinctNames others).length ≤ limit := hnames.length_eq ▸ hroom
  have hnil : spans = [] ↔ others = [] := by
    constructor
    · rintro rfl
      exact h.symm.eq_nil
    · rintro rfl
      exact h.eq_nil
  rw [seriesNames, seriesNames, admittedNames_of_room hroom, admittedNames_of_room hothers]
  simp only [hnil]
  exact hnames.append_left _

end CompletedSpan

theorem HistogramEntry.gathered_perm (p : Precision) {spans others : List CompletedSpan}
    (h : spans.Perm others) : gathered p spans = gathered p others := by
  funext series
  have hl : (latencies spans series).Perm (latencies others series) := (h.filter _).map _
  rw [gathered, gathered, Histogram.gather_perm p hl]

namespace Aggregation

variable {p : Precision} {limit : Nat} {s t : Aggregation} {spans others : List CompletedSpan}

/-- The entries of a state that was fed by requests alone, up to their order. -/
theorem Gathered.values_perm (h : Gathered p limit spans s) :
    s.histograms.entries.values.Perm ((seriesNames limit spans).map (.gathered p spans)) :=
  Table.values_perm _ (nodup_seriesNames limit spans) _ h.entries

/-- States that were fed by the same requests have the same entries. -/
theorem Gathered.entries_perm (hs : Gathered p limit spans s) (ht : Gathered p limit others t)
    (h : spans.Perm others) (hroom : (distinctNames spans).length ≤ limit) :
    s.histograms.entries.values.Perm t.histograms.entries.values := by
  have hnames := (seriesNames_perm h hroom).map (HistogramEntry.gathered p spans)
  refine hs.values_perm.trans (hnames.trans ?_)
  rw [HistogramEntry.gathered_perm p h]
  exact ht.values_perm.symm

/-- With room for all names the responses are those of the requests under their names. -/
theorem Opened.samples (h : Opened p limit s) (hroom : (distinctNames spans).length ≤ limit) :
    s.samples (spans.map .recordSpan) = spans.map fun span => span.response span.name := by
  rw [samples_recordSpan, h.gathered.classifications spans, List.nil_append,
    List.zipWith_map_right, List.zipWith_self]
  apply List.map_congr_left
  intro span hm
  rw [transaction_classified_of_room hroom hm]

/-- The counters of a state that was fed by requests alone and had room for their names. -/
theorem Opened.counters (h : Opened p limit s) (hroom : (distinctNames spans).length ≤ limit) :
    (s.performAll (spans.map .recordSpan)).value.2.counters = CounterTable.recordAll .empty
      ((spans.map fun span => span.response span.name).flatMap ResponseTime.updates) := by
  have hops : ∀ op ∈ spans.map Operation.recordSpan, op.onlyResponds :=
    List.forall_mem_map.2 fun _ _ => rfl
  have hempty : s.counters = .empty := by rw [h.eq]
  rw [s.counters_performAll hops, hempty, CounterTable.recordResponses_eq, h.samples hroom]

theorem Opened.gathered_spans (h : Opened p limit s) (spans : List CompletedSpan) :
    Gathered p limit spans (s.performAll (spans.map .recordSpan)).value.2 := by
  have hops : ∀ op ∈ spans.map Operation.recordSpan, op.onlySpans :=
    List.forall_mem_map.2 fun _ _ => rfl
  have hspans : (spans.map Operation.recordSpan).filterMap Operation.span? = spans := by
    rw [List.filterMap_map]
    exact List.filterMap_some
  have hg := h.gathered.performAll hops
  rwa [hspans, List.nil_append] at hg

/-- Requests with no more names than the registry has room for lead to the same names,
to no overflow, to histograms of the same names with the same texts, and to the same
counts under the same keys, in whatever order they come and whatever compresses the
histograms. -/
theorem order_independent (z : Zlib.Encoder) (requested capacity : Nat)
    {spans others : List CompletedSpan}
    (h : spans.Perm others) (hroom : (distinctNames spans).length ≤ capacity) :
    let s := ((new requested capacity).value.performAll (spans.map .recordSpan)).value.2
    let t := ((new requested capacity).value.performAll (others.map .recordSpan)).value.2
    let a := s.drain.value.1
    let b := t.drain.value.1
    let encode := Histogram.Wire.encodeWith z.compress
    (s.registry.names.Perm t.registry.names ∧ s.registry.names = distinctNames spans) ∧
    (a.overflow = false ∧ b.overflow = false) ∧
    ((a.histograms.map fun e => (e.name, encode e.histogram)).Perm
        (b.histograms.map fun e => (e.name, encode e.histogram)) ∧
      (a.histograms.map (·.name)).Nodup ∧
      (spans.length < 2 ^ 63 → ∀ e ∈ a.histograms, ∃ text, encode e.histogram = .ok text)) ∧
    (a.counters.map fun c => (c.key, c.count)).Perm (b.counters.map fun c => (c.key, c.count)) ∧
      (a.counters.map (·.key)).Nodup := by
  intro s t a b encode
  have hopened : Opened (.ofRequest requested) capacity (new requested capacity).value := by
    have hnew : (new requested capacity).value =
        (new (Precision.ofRequest requested).val capacity).value := by
      rw [value_new, new_val]
    rw [hnew]
    exact .created _ capacity
  have hothers : (distinctNames others).length ≤ capacity :=
    (distinctNames_perm h).length_eq ▸ hroom
  have hs : Gathered _ capacity spans s := hopened.gathered_spans spans
  have ht : Gathered _ capacity others t := hopened.gathered_spans others
  have hsnames : s.registry.names = distinctNames spans :=
    hs.registry.names.trans (admittedNames_of_room hroom)
  have htnames : t.registry.names = distinctNames others :=
    ht.registry.names.trans (admittedNames_of_room hothers)
  have hentries : s.histograms.entries.values.Perm t.histograms.entries.values :=
    hs.entries_perm ht h hroom
  have hcounters : a.counters = (CounterTable.recordAll .empty
      ((spans.map fun span => span.response span.name).flatMap ResponseTime.updates)).values :=
    congrArg Table.values (hopened.counters hroom)
  have hcounters' : b.counters = (CounterTable.recordAll .empty
      ((others.map fun span => span.response span.name).flatMap ResponseTime.updates)).values :=
    congrArg Table.values (hopened.counters hothers)
  refine ⟨⟨?_, hsnames⟩, ⟨?_, ?_⟩, ⟨hentries.map _, ?_, ?_⟩, ?_, ?_⟩
  · rw [hsnames, htnames]
    exact distinctNames_perm h
  · exact hs.registry.overflow.trans (decide_eq_false (by omega))
  · exact ht.registry.overflow.trans (decide_eq_false (by omega))
  · apply (hs.values_perm.map _).nodup_iff.2
    rw [List.map_map]
    exact (List.map_id _).symm ▸ nodup_seriesNames capacity spans
  · intro hl e he
    obtain ⟨n, -, rfl⟩ := List.mem_map.1 (hs.values_perm.mem_iff.1 he)
    have hsized : (HistogramEntry.gathered (.ofRequest requested) spans n).histogram.Sized := by
      refine Histogram.gather_sized _ (lt_of_le_of_lt ?_ hl)
      rw [latencies, List.length_map]
      exact List.length_filter_le _ _
    exact ⟨_, Histogram.Wire.encodeWith_eq z hsized⟩
  · rw [hcounters, hcounters']
    apply CounterTable.key_count_values_perm
    exact (h.map _).flatMap_right _
  · rw [hcounters, CounterTable.map_key_values]
    exact nodup_eraseDups _

/-- Two of the requests share a key by their methods. Whichever comes first gives the entry
its tags, and both orders count two requests under it. -/
theorem order_independent_of_four :
    let spans : List CompletedSpan :=
      [⟨"c", "", ⟨1500000⟩, 200, "a&TransactionName:b", false⟩,
        ⟨"b&TransactionName:c", "", ⟨2500000⟩, 200, "a", true⟩,
        ⟨"", "/x/y/z/w", ⟨1500000⟩, 200, "GET", false⟩, ⟨"", "", ⟨1500000⟩, 200, "GET", false⟩]
    let others := spans.reverse
    let a := ((new 2 3).value.performAll (spans.map .recordSpan)).value.2.drain.value.1
    let b := ((new 2 3).value.performAll (others.map .recordSpan)).value.2.drain.value.1
    spans.Perm others ∧ (distinctNames spans).length ≤ 3 ∧
      ((a.histograms.map fun e => (e.name, Histogram.Wire.encode e.histogram)).Perm
        (b.histograms.map fun e => (e.name, Histogram.Wire.encode e.histogram))) ∧
      ((a.counters.map fun c => (c.key, c.count)).Perm
        (b.counters.map fun c => (c.key, c.count))) ∧
      ¬(a.counters.map fun c => (c.key, c.tags)).Perm (b.counters.map fun c => (c.key, c.tags)) := by
  intro spans others a b
  have hperm : spans.Perm others := spans.reverse_perm.symm
  have hroom : (distinctNames spans).length ≤ 3 := by decide +kernel
  obtain ⟨-, -, ⟨hhistograms, -⟩, hcounters, -⟩ :=
    order_independent Zlib.encoder 2 3 hperm hroom
  exact ⟨hperm, hroom, hhistograms, hcounters, by decide +kernel⟩

end Aggregation
end SpanMetrics
