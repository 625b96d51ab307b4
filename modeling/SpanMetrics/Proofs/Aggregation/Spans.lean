import SpanMetrics.Proofs.Aggregation.Steps
import SpanMetrics.Proofs.Histogram.Resolution
import SpanMetrics.Proofs.Transaction.Admission

/-!
# Histograms of a cycle

What a drain gives out when the registry and the histograms were fed by requests
alone. The registry, its overflow and the names of the histograms are updated by
separate steps; `Gathered` says what they have in common after every request, and
a cycle of any length follows by induction over its operations.
-/
namespace SpanMetrics

open CompletedSpan

namespace CompletedSpan

/-- The series of histograms that requests reach: the overall one, and one for each
name that the registry took. -/
def seriesNames (limit : Nat) (spans : List CompletedSpan) : List String :=
  (if spans = [] then [] else [""]) ++ admittedNames limit spans

/-- The latencies of the requests that belong to a series. -/
def latencies (spans : List CompletedSpan) (series : String) : List Duration :=
  (spans.filter fun span => series = "" ∨ span.name = series).map (·.duration)

theorem latencies_empty (spans : List CompletedSpan) :
    latencies spans "" = spans.map (·.duration) := by
  simp [latencies]

theorem latencies_of_ne (spans : List CompletedSpan) {series : String} (h : series ≠ "") :
    latencies spans series = (spans.filter (·.name = series)).map (·.duration) := by
  simp [latencies, h]

theorem latencies_append (spans : List CompletedSpan) (span : CompletedSpan) (series : String) :
    latencies (spans ++ [span]) series =
      latencies spans series ++ if series = "" ∨ span.name = series then [span.duration] else [] := by
  rw [latencies, List.filter_append, List.map_append, ← latencies]
  by_cases h : series = "" ∨ span.name = series <;> simp [h]

theorem admittedNames_subset {limit : Nat} {spans : List CompletedSpan} {n : String}
    (h : n ∈ admittedNames limit spans) : n ∈ distinctNames spans := List.mem_of_mem_take h

/-- The first names stay the first ones, and only the name of the last request can
be new among them. -/
theorem mem_admittedNames_append {limit : Nat} {spans : List CompletedSpan}
    {span : CompletedSpan} {n : String} :
    n ∈ admittedNames limit (spans ++ [span]) ↔
      n ∈ admittedNames limit spans ∨
        n = span.name ∧ span.name ∈ admittedNames limit (spans ++ [span]) := by
  rw [admittedNames, admittedNames, distinctNames_append]
  split
  · constructor
    · exact .inl
    · rintro (h | ⟨rfl, h⟩)
      · exact h
      · exact h
  · rw [List.take_append]
    simp only [List.mem_append]
    constructor
    · rintro (h | h)
      · exact .inl h
      · have hn := List.mem_singleton.1 (List.mem_of_mem_take h)
        exact .inr ⟨hn, .inr (hn ▸ h)⟩
    · rintro (h | ⟨rfl, h⟩)
      · exact .inl h
      · exact h

theorem mem_seriesNames_append {limit : Nat} {spans : List CompletedSpan}
    {span : CompletedSpan} {n : String} :
    n ∈ seriesNames limit (spans ++ [span]) ↔
      n = "" ∨ n ∈ admittedNames limit spans ∨
        n = span.name ∧ span.name ∈ admittedNames limit (spans ++ [span]) := by
  rw [seriesNames, if_neg (by simp), List.mem_append, List.mem_singleton,
    mem_admittedNames_append]

theorem nodup_seriesNames (limit : Nat) (spans : List CompletedSpan) :
    (seriesNames limit spans).Nodup := by
  have ha : (admittedNames limit spans).Nodup :=
    (nodup_distinctNames spans).sublist (List.take_sublist _ _)
  unfold seriesNames
  split
  · exact ha
  · apply List.nodup_cons.2
    constructor
    · intro h
      exact empty_not_mem spans (admittedNames_subset h)
    · exact ha

end CompletedSpan

/-- The histogram of a series after requests alone. -/
def HistogramEntry.gathered (p : Precision) (spans : List CompletedSpan) (series : String) :
    HistogramEntry :=
  ⟨series, .gather p (latencies spans series)⟩

namespace Aggregation

/-- Registry and histograms after requests alone. -/
structure Gathered (p : Precision) (limit : Nat) (spans : List CompletedSpan)
    (s : Aggregation) : Prop where
  registry : s.registry.Admits limit spans
  precision : s.histograms.precision = p
  entries : ∀ n, s.histograms.entries.get? n =
    if n ∈ seriesNames limit spans then some (.gathered p spans n) else none

variable {p : Precision} {limit : Nat} {spans : List CompletedSpan} {s : Aggregation}

theorem Opened.gathered (h : Opened p limit s) : Gathered p limit [] s := by
  rw [h.eq]
  exact ⟨Registry.admits_new limit, rfl, fun n => by simp [seriesNames, admittedNames]⟩

/-- A series without latencies so far has an empty entry, whether the table has it
or not. -/
theorem Gathered.entry (h : Gathered p limit spans s) {n : String}
    (hn : n ∈ seriesNames limit spans ∨ latencies spans n = []) :
    s.histograms.entry n = .gathered p spans n := by
  rw [HistogramTable.entry, h.entries]
  split
  · rfl
  · next hm =>
    rw [HistogramEntry.gathered, hn.resolve_left hm, h.precision]
    rfl

theorem gathered_append_of_ne {n : String} {span : CompletedSpan} (h : n ≠ "")
    (hs : n ≠ span.name) :
    HistogramEntry.gathered p (spans ++ [span]) n = .gathered p spans n := by
  rw [HistogramEntry.gathered, latencies_append, if_neg (by simp [h, hs.symm]), List.append_nil]
  rfl

theorem gathered_append {n : String} {span : CompletedSpan} (h : n = "" ∨ span.name = n) :
    HistogramEntry.gathered p (spans ++ [span]) n =
      { HistogramEntry.gathered p spans n with
        histogram := (HistogramEntry.gathered p spans n).histogram.observe span.duration } := by
  rw [HistogramEntry.gathered, latencies_append, if_pos h, Histogram.gather_append_singleton]
  rfl

/-- The overall histogram after the first step of a request. -/
theorem Gathered.get?_overall (h : Gathered p limit spans s) (span : CompletedSpan) (n : String) :
    (s.histograms.record "" span.duration).value.entries.get? n =
      if n = "" then some (.gathered p (spans ++ [span]) "")
      else if n ∈ admittedNames limit spans then some (.gathered p spans n) else none := by
  have he : s.histograms.entry "" = .gathered p spans "" := by
    apply h.entry
    by_cases hs : spans = []
    · exact .inr (by rw [hs]; rfl)
    · exact .inl (by simp [seriesNames, hs])
  rw [HistogramTable.get?_record, he, h.entries]
  split
  · rw [gathered_append (.inl rfl)]
  · next hn =>
    have hm : n ∈ seriesNames limit spans ↔ n ∈ admittedNames limit spans := by
      unfold seriesNames
      split <;> simp [hn]
    simp only [hm]

/-- A series that gets no entry of its own from a request has what the overall
step left. -/
theorem Gathered.get?_rest (h : Gathered p limit spans s) (span : CompletedSpan) (n : String)
    (hn : n = span.name → span.name ∉ admittedNames limit (spans ++ [span])) :
    (s.histograms.record "" span.duration).value.entries.get? n =
      if n ∈ seriesNames limit (spans ++ [span]) then some (.gathered p (spans ++ [span]) n)
      else none := by
  rw [h.get?_overall]
  simp only [mem_seriesNames_append]
  by_cases he : n = ""
  · rw [if_pos he, if_pos (.inl he), he]
  · rw [if_neg he]
    by_cases hm : n ∈ admittedNames limit spans
    · have hs : n ≠ span.name := fun hs =>
        hn hs (mem_admittedNames_append.2 (.inl (hs ▸ hm)))
      rw [if_pos hm, if_pos (.inr (.inl hm)), gathered_append_of_ne he hs]
    · rw [if_neg hm, if_neg]
      rintro (h1 | h2 | ⟨h3, h4⟩)
      · exact he h1
      · exact hm h2
      · exact hn h3 h4

/-- The entry to which the last step of a request adds its latency. -/
theorem Gathered.entry_named (h : Gathered p limit spans s) {span : CompletedSpan}
    (ha : span.name ∈ admittedNames limit (spans ++ [span])) :
    (s.histograms.record "" span.duration).value.entry span.name =
      .gathered p spans span.name := by
  have hne : span.name ≠ "" := Transaction.derived_ne_empty _ _
  rw [HistogramTable.entry, h.get?_overall, if_neg hne]
  split
  · rfl
  · next hm =>
    -- the name is new, so no request before had it
    have hd : span.name ∉ distinctNames spans := by
      intro hd
      rw [admittedNames, distinctNames_append, if_pos (.inr hd)] at ha
      exact hm ha
    have hu : span.name ≠ Transaction.unknownName := fun hu =>
      unknownName_not_mem _ (hu ▸ admittedNames_subset ha)
    have hl : latencies spans span.name = [] := by
      rw [latencies_of_ne spans hne, List.map_eq_nil_iff, List.filter_eq_nil_iff]
      intro other ho he
      exact hd (mem_distinctNames.2 ⟨hu, other, ho, of_decide_eq_true he⟩)
    rw [HistogramEntry.gathered, hl, HistogramTable.precision_record, h.precision]
    rfl

theorem precision_recordClassified (t : HistogramTable) (c : Classification) (d : Duration) :
    (recordClassified t c d).precision = t.precision := by
  cases c with
  | named name => exact t.precision_record name d
  | other => rfl
  | unknown => rfl

/-- A request keeps registry and histograms in step. -/
theorem Gathered.recordSpan (h : Gathered p limit spans s) (span : CompletedSpan) :
    Gathered p limit (spans ++ [span]) (s.recordSpan span).value := by
  obtain ⟨hr, hc⟩ := h.registry.classify span
  constructor
  · rw [registry_recordSpan]
    exact hr
  · rw [histograms_recordSpan, precision_recordClassified, HistogramTable.precision_record]
    exact h.precision
  · intro n
    rw [histograms_recordSpan, classification, hc]
    by_cases ha : span.name ∈ admittedNames limit (spans ++ [span])
    · have hu : span.name ≠ Transaction.unknownName := fun hu =>
        unknownName_not_mem _ (hu ▸ admittedNames_subset ha)
      rw [if_neg hu, if_pos ha, recordClassified, HistogramTable.get?_record]
      by_cases hn : n = span.name
      · rw [if_pos hn, hn, h.entry_named ha, ← gathered_append (.inr rfl), if_pos]
        exact mem_seriesNames_append.2 (.inr (.inr ⟨rfl, ha⟩))
      · rw [if_neg hn, h.get?_rest span n fun he => absurd he hn]
    · have hrest := h.get?_rest span n fun _ => ha
      rw [if_neg ha]
      split
      · exact hrest
      · exact hrest

end Aggregation

namespace Operation

/-- The request that an operation records. -/
def span? : Operation → Option CompletedSpan
  | recordSpan span => some span
  | _ => none

/-- The capacity that an operation stages. -/
def capacity? : Operation → Option Nat
  | stage capacity => some capacity
  | _ => none

/-- Whether an operation leaves registry names and histograms to the requests. -/
def onlySpans : Operation → Bool
  | recordLatency _ _ | offer _ | classify _ _ | drainHistograms | resetRegistry | drain => false
  | _ => true

end Operation

namespace Aggregation

variable {p : Precision} {limit : Nat} {spans : List CompletedSpan} {s : Aggregation}

theorem Gathered.perform (h : Gathered p limit spans s) {op : Operation} (hop : op.onlySpans) :
    Gathered p limit (spans ++ op.span?.toList) (s.perform op).value.2 := by
  cases op with
  | recordSpan span => exact h.recordSpan span
  | stage capacity =>
    show Gathered p limit (spans ++ []) _
    rw [List.append_nil]
    exact ⟨h.registry.stage capacity, h.precision, h.entries⟩
  | recordLatency | offer | classify | drainHistograms | resetRegistry | drain =>
    exact absurd hop Bool.false_ne_true
  | _ =>
    show Gathered p limit (spans ++ []) _
    rw [List.append_nil]
    exact ⟨h.registry, h.precision, h.entries⟩

theorem Gathered.performAll (h : Gathered p limit spans s) {ops : List Operation}
    (hops : ∀ op ∈ ops, op.onlySpans) :
    Gathered p limit (spans ++ ops.filterMap Operation.span?) (s.performAll ops).value.2 := by
  induction ops generalizing s spans with
  | nil =>
    rw [List.filterMap_nil, List.append_nil]
    exact h
  | cons op ops ih =>
    obtain ⟨hop, hrest⟩ := List.forall_mem_cons.1 hops
    have hstep := ih (h.perform hop) hrest
    rw [List.append_assoc] at hstep
    rw [performAll_cons]
    cases hs : op.span? <;> simpa [hs] using hstep

theorem staged_perform (s : Aggregation) (op : Operation) :
    (s.perform op).value.2.registry.staged = op.capacity?.getD s.registry.staged := by
  cases op with
  | recordSpan span =>
    rw [perform_recordSpan, registry_recordSpan, Registry.staged_classify]
    rfl
  | offer name => exact Registry.staged_offer s.registry name
  | classify transaction path => exact Registry.staged_classify s.registry transaction path
  | _ => rfl

/-- The capacity of the next cycle is the last one that was staged. -/
theorem staged_performAll (s : Aggregation) (ops : List Operation) :
    (s.performAll ops).value.2.registry.staged =
      (ops.filterMap Operation.capacity?).getLastD s.registry.staged := by
  induction ops generalizing s with
  | nil => rfl
  | cons op ops ih =>
    rw [performAll_cons, ih, staged_perform]
    cases hs : op.capacity? with
    | none => rw [List.filterMap_cons_none hs, Option.getD_none]
    | some capacity => rw [List.filterMap_cons_some hs, List.getLastD_cons, Option.getD_some]

theorem drain_next (s : Aggregation) :
    s.drain.value.2 =
      ⟨.new s.registry.staged, .empty, ⟨s.histograms.precision, .empty⟩, .zero, .zero⟩ := rfl

/-- A cycle whose names and histograms came from requests alone is drained as the
overall histogram, if there was a request, and one histogram for each of the first
distinct names, as many as the capacity. The overall histogram has the latencies of
all requests, the one of a name those of exactly the requests with this name; the
counts of an entry, one for each bucket, are those of its latencies below `2 ^ 32`
microseconds. The overflow tells whether there were more names, and the next cycle
starts empty with the capacity that was staged last. -/
theorem drain_spans (h : Opened p limit s) (ops : List Operation)
    (hops : ∀ op ∈ ops, op.onlySpans) :
    let spans := ops.filterMap Operation.span?
    let (cycle, next) := (s.performAll ops).value.2.drain.value
    cycle.histograms.Perm
      ((if spans = [] then [] else [⟨"", .gather p (spans.map (·.duration))⟩]) ++
        ((distinctNames spans).take limit).map fun n =>
          ⟨n, .gather p ((spans.filter (·.name = n)).map (·.duration))⟩) ∧
    (cycle.histograms.map (·.name)).Nodup ∧
    (∀ e ∈ cycle.histograms,
      let values := ((spans.filter fun span => e.name = "" ∨ span.name = e.name).map
        (·.duration.nanos / 1000)).filter (· < 2 ^ 32)
      e.histogram.total = values.length ∧ ∀ slot, e.histogram.countAt slot =
        values.countP (Histogram.Inside (Histogram.bucket p slot))) ∧
    cycle.overflow = decide (limit < (distinctNames spans).length) ∧
    next = ⟨.new ((ops.filterMap Operation.capacity?).getLastD limit), .empty, ⟨p, .empty⟩,
      .zero, .zero⟩ := by
  intro spans
  have hg : Gathered p limit spans (s.performAll ops).value.2 := h.gathered.performAll hops
  have hperm : (s.performAll ops).value.2.histograms.entries.values.Perm
      ((seriesNames limit spans).map (.gathered p spans)) :=
    Table.values_perm _ (nodup_seriesNames limit spans) _ hg.entries
  refine ⟨?_, ?_, fun e he => ?_, hg.registry.overflow, ?_⟩
  · refine hperm.trans (List.Perm.of_eq ?_)
    rw [seriesNames, List.map_append]
    refine congrArg₂ _ ?_ (List.map_congr_left fun n hn => ?_)
    · split
      · rfl
      · rw [List.map_singleton, HistogramEntry.gathered, latencies_empty]
    · have hne : n ≠ "" := fun he => empty_not_mem spans (he ▸ admittedNames_subset hn)
      rw [HistogramEntry.gathered, latencies_of_ne spans hne]
  · refine (hperm.map _).nodup_iff.2 ?_
    rw [List.map_map]
    exact (List.map_id _).symm ▸ nodup_seriesNames limit spans
  · obtain ⟨n, -, rfl⟩ := List.mem_map.1 (hperm.mem_iff.1 he)
    have hvalues : Histogram.counted (latencies spans n) =
        ((spans.filter fun span => n = "" ∨ span.name = n).map
          (·.duration.nanos / 1000)).filter (· < 2 ^ 32) := by
      rw [Histogram.counted, latencies, List.map_map]
      rfl
    have hresolves := Histogram.resolves_gather p (latencies spans n)
    rw [hvalues] at hresolves
    exact ⟨hresolves.total, hresolves.countAt⟩
  · have hs : s.registry.staged = limit := by rw [h.eq]; rfl
    show (s.performAll ops).value.2.drain.value.2 = _
    rw [drain_next, staged_performAll, hs, hg.precision]

/-- With room for one name the second one only reaches the overall histogram, and
the larger capacity comes with the next cycle. -/
theorem drain_spans_of_three :
    let s := (Aggregation.new 2 1).value
    let ops : List Operation :=
      [.recordSpan ⟨"", "/a/b/c/d", ⟨1500000⟩, 200, "GET", false⟩, .stage 5,
        .recordSpan ⟨"b", "", ⟨2500000⟩, 500, "GET", true⟩,
        .recordSpan ⟨"", "", ⟨2500000⟩, 200, "GET", false⟩]
    let (cycle, next) := (s.performAll ops).value.2.drain.value
    Opened 2 1 s ∧ (∀ op ∈ ops, op.onlySpans) ∧
      cycle.histograms.Perm
        [⟨"", .gather 2 [⟨1500000⟩, ⟨2500000⟩, ⟨2500000⟩]⟩, ⟨"/a/b/c", .gather 2 [⟨1500000⟩]⟩] ∧
      (∀ e ∈ cycle.histograms, e.name = "" →
        e.histogram.countAt (Histogram.slot 2 2500) = 2) ∧
      cycle.overflow = true ∧ next.registry = .new 5 := by
  have hs : Opened 2 1 (Aggregation.new 2 1).value := .created 2 1
  obtain ⟨hperm, -, hcounts, hover, hnext⟩ := drain_spans hs
    [.recordSpan ⟨"", "/a/b/c/d", ⟨1500000⟩, 200, "GET", false⟩, .stage 5,
      .recordSpan ⟨"b", "", ⟨2500000⟩, 500, "GET", true⟩,
      .recordSpan ⟨"", "", ⟨2500000⟩, 200, "GET", false⟩] (by decide)
  refine ⟨hs, by decide, hperm.trans (List.Perm.of_eq ?_), fun e he hn => ?_,
    hover.trans (by decide +kernel), congrArg registry hnext⟩
  · decide +kernel
  · rw [(hcounts e he).2]
    simp only [hn]
    decide +kernel

end Aggregation
end SpanMetrics
