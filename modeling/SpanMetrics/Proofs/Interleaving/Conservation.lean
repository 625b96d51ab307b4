import SpanMetrics.Proofs.Aggregation.Counts
import SpanMetrics.Proofs.Interleaving.Steps
import SpanMetrics.Proofs.Transaction.Admission

/-!
# Nothing is lost between steps

Whatever order the steps come in, each request is counted once. The parts of a request
may go to different cycles, and its name may be taken in one cycle and filed in the
next. `Conserved` therefore looks at tables, drained cycles and unfinished recordings at
once: together the tables and the cycles have what the recordings so far have given.
-/
namespace SpanMetrics

/-- The name whose histogram has the latency, besides the overall one. -/
def Progress.name? : Progress → Option String
  | filed name | recorded (.named name) => some name
  | _ => none

namespace Recording

/-- Whether the response of the request is counted under a transaction. -/
def counts (r : Recording) (transaction : String) : Bool :=
  r.outcome?.map (·.transaction) = some transaction

/-- Whether the histogram of a name has a sample of the request. -/
def samples (r : Recording) (name : String) : Bool :=
  (name = "" ∨ r.progress.name? = some name) ∧ r.span.duration.micros < Histogram.ceiling

/-- Once a recording is done, only a request that was taken under its own name has a
histogram besides the overall one. -/
theorem name?_of_done {r : Recording} (h : r.outcome?.isSome) (name : String) :
    r.progress.name? = some name ↔ r.outcome? = some (.named name) := by
  obtain ⟨span, progress⟩ := r
  cases progress with
  | measured | classified | filed => cases h
  | recorded c => cases c <;> simp [Progress.name?, outcome?]

/-- The response that the next step counts. -/
def response? (r : Recording) : Option ResponseTime :=
  match r.progress with
  | .classified (.named _) _ => none
  | .classified c _ => some (r.span.response c.transaction)
  | .filed name => some (r.span.response name)
  | _ => none

/-- No latency is about to be filed under the name of the overall histogram. -/
def Proper (r : Recording) : Prop := ∀ f ∈ r.filing?, f.name ≠ ""

end Recording

/-- One recording that goes on changes a count of recordings by itself alone. -/
theorem countP_set_add {p : Recording → Bool} {rs : List Recording} {number : Nat}
    {r : Recording} (h : rs[number]? = some r) (next : Recording) :
    (rs.set number next).countP p + (if p r then 1 else 0) =
      rs.countP p + if p next then 1 else 0 := by
  obtain ⟨hl, rfl⟩ := List.getElem?_eq_some_iff.1 h
  have hle : (if p rs[number] then 1 else 0) ≤ rs.countP p := by
    split
    · next hp => exact List.countP_pos_iff.2 ⟨_, List.getElem_mem hl, hp⟩
    · exact Nat.zero_le _
  rw [List.countP_set hl]
  omega

namespace Aggregation

variable (s : Aggregation) (cycle : Nat)

/-- A recording after its next step. -/
def next (r : Recording) : Recording := { r with progress := (s.advance cycle r).value.1 }

theorem counters_advance (r : Recording) :
    (s.advance cycle r).value.2.counters =
      r.response?.elim s.counters s.counters.recordResponse := by
  obtain ⟨span, progress⟩ := r
  cases progress with
  | classified c before =>
    cases c with
    | named name => rfl
    | other | unknown =>
      rw [s.advance_unnamed cycle before span fun _ => by simp, counters_recordResponse,
        Recording.response?, Option.elim_some]
  | filed name =>
    rw [advance_filed, counters_recordResponse, Recording.response?, Option.elim_some]
  | measured | recorded => rfl

theorem ofResponses_advance (h : s.counters.OfResponses) (r : Recording) :
    (s.advance cycle r).value.2.counters.OfResponses := by
  rw [counters_advance]
  cases r.response? with
  | none => exact h
  | some response =>
    rw [Option.elim_some]
    exact h.record response

theorem histograms_advance (r : Recording) :
    (s.advance cycle r).value.2.histograms =
      r.filing?.elim s.histograms fun f =>
        (s.histograms.record f.name r.span.duration).value := by
  obtain ⟨span, progress⟩ := r
  cases progress with
  | classified c before => cases c <;> rfl
  | measured | filed | recorded => rfl

theorem named_advance (h : s.histograms.Named) (r : Recording) :
    (s.advance cycle r).value.2.histograms.Named := by
  rw [histograms_advance]
  cases r.filing? with
  | none => exact h
  | some f => exact h.record f.name r.span.duration

/-- The registry takes no empty name. -/
theorem proper_next (r : Recording) : (s.next cycle r).Proper := by
  intro f hf
  have hp := Recording.filing?_eq_some.1 hf
  obtain ⟨span, progress⟩ := r
  cases progress with
  | measured =>
    have hc : (s.registry.classify span.transaction span.path).value.1 = .named f.name :=
      (Progress.classified.inj hp).1
    rw [Registry.eq_name_of_classify hc]
    exact Transaction.derived_ne_empty _ _
  | classified c before => cases c <;> cases hp
  | filed | recorded => cases hp

/-- Once the next step is done, its response is counted. -/
theorem counts_next (r : Recording) (transaction : String) :
    (s.next cycle r).counts transaction =
      (r.counts transaction || r.response?.any (·.transaction = transaction)) := by
  obtain ⟨span, progress⟩ := r
  cases progress with
  | measured => rfl
  | classified c before =>
    cases c <;> simp [next, advance, Recording.counts, Recording.outcome?, Recording.response?,
      CompletedSpan.response]
  | filed name =>
    simp [next, advance, Recording.counts, Recording.outcome?, Recording.response?,
      CompletedSpan.response, Classification.transaction]
  | recorded c => simp [Recording.counts, Recording.outcome?, Recording.response?, next, advance]

theorem counts_of_response? {r : Recording} {response : ResponseTime}
    (h : r.response? = some response) (transaction : String) : r.counts transaction = false := by
  obtain ⟨span, progress⟩ := r
  cases progress with
  | classified | filed => rfl
  | measured | recorded => cases h

/-- A step counts a response under a transaction if the recording is counted there after
it and was not before. -/
theorem countOf_advance (h : s.counters.OfResponses) (r : Recording) (transaction : String) :
    Counter.countOf transaction (s.advance cycle r).value.2.counters.values +
        (if r.counts transaction then 1 else 0 : Nat) =
      Counter.countOf transaction s.counters.values +
        (if (s.next cycle r).counts transaction then 1 else 0 : Nat) := by
  rw [counters_advance, counts_next]
  cases hr : r.response? with
  | none => simp
  | some response =>
    rw [Option.elim_some, h.countOf_record, counts_of_response? hr]
    simp

/-- The name of a step that files a latency is one that the recording gets by it. -/
theorem name?_next (r : Recording) :
    (s.next cycle r).progress.name? = r.filing?.elim r.progress.name? (some ·.name) := by
  obtain ⟨span, progress⟩ := r
  cases progress with
  | classified c before => cases c <;> rfl
  | measured | filed | recorded => rfl

theorem name?_of_filing? {r : Recording} {f : Filing} (h : r.filing? = some f) :
    r.progress.name? = none := by
  rw [Recording.filing?_eq_some.1 h]
  rfl

/-- A step adds a sample to a histogram if the recording has one there after it and had
none before. -/
theorem samplesOf_advance (h : s.histograms.Named) {r : Recording} (hr : r.Proper)
    (name : String) :
    HistogramEntry.samplesOf name (s.advance cycle r).value.2.histograms.entries.values +
        (if r.samples name then 1 else 0) =
      HistogramEntry.samplesOf name s.histograms.entries.values +
        if (s.next cycle r).samples name then 1 else 0 := by
  rw [histograms_advance, Recording.samples, Recording.samples, name?_next]
  cases hf : r.filing? with
  | none => rfl
  | some f =>
    have hne : f.name ≠ "" := hr f hf
    rw [Option.elim_some, Option.elim_some, h.samplesOf_record, name?_of_filing? hf]
    by_cases hn : f.name = name
    · subst hn
      simp [hne, next]
    · simp [hn, next]

end Aggregation

namespace Interleaving

/-- What tables and cycles have of the recordings so far. -/
structure Conserved (s : Interleaving) : Prop where
  responses : s.state.counters.OfResponses
  named : s.state.histograms.Named
  proper : ∀ r ∈ s.recordings, r.Proper
  counted : ∀ transaction, Counter.countOf transaction s.counters =
    s.recordings.countP (·.counts transaction)
  sampled : ∀ name, HistogramEntry.samplesOf name s.histograms =
    s.recordings.countP (·.samples name)

variable {s : Interleaving}

theorem countOf_counters (s : Interleaving) (transaction : String) :
    Counter.countOf transaction s.counters =
      Counter.countOf transaction (s.drained.flatMap (·.counters)) +
        Counter.countOf transaction s.state.counters.values :=
  Counter.countOf_append _ _ _

theorem samplesOf_histograms (s : Interleaving) (name : String) :
    HistogramEntry.samplesOf name s.histograms =
      HistogramEntry.samplesOf name (s.drained.flatMap (·.histograms)) +
        HistogramEntry.samplesOf name s.state.histograms.entries.values :=
  HistogramEntry.samplesOf_append _ _ _

theorem conserved_new (precision capacity : Nat) : Conserved (new precision capacity).value := by
  rw [new, Logged.value_bind, Aggregation.value_new]
  exact ⟨⟨[], rfl⟩, HistogramTable.named_empty _, List.forall_mem_nil _, fun _ => rfl,
    fun _ => rfl⟩

theorem Conserved.begin (h : Conserved s) (span : CompletedSpan) :
    Conserved (s.step (.begin span)).value := by
  rw [step_begin]
  refine ⟨h.responses, h.named.record "" span.duration, ?_, fun transaction => ?_, fun name => ?_⟩
  · intro r hr f hf
    rcases List.mem_append.1 hr with hold | hnew
    · exact h.proper r hold f hf
    · rw [List.mem_singleton.1 hnew] at hf
      cases hf
  · rw [List.countP_append, Nat.cast_add, ← h.counted]
    exact (add_zero _).symm
  · have hold := h.sampled name
    rw [samplesOf_histograms] at hold ⊢
    rw [List.countP_append, ← hold, List.countP_singleton]
    show _ + HistogramEntry.samplesOf name
      (s.state.histograms.record "" span.duration).value.entries.values = _
    rw [h.named.samplesOf_record, ← Nat.add_assoc]
    by_cases hn : "" = name
    · subst hn
      simp [Recording.samples, drained]
    · simp [Recording.samples, Progress.name?, drained, hn, Ne.symm hn]

theorem Conserved.advance (h : Conserved s) (number : Nat) :
    Conserved (s.step (.advance number)).value := by
  cases hr : s.recordings[number]? with
  | none =>
    rw [step_advance_of_none s hr]
    exact h
  | some r =>
    have hp : r.Proper := h.proper r (List.mem_of_getElem? hr)
    have hset := fun p => countP_set_add (p := p) hr (s.state.next s.cycles.length r)
    rw [step_advance_of_some s hr]
    constructor
    · exact s.state.ofResponses_advance _ h.responses r
    · exact s.state.named_advance _ h.named r
    · intro q hq
      rcases List.mem_or_eq_of_mem_set hq with hold | rfl
      · exact h.proper q hold
      · exact s.state.proper_next _ r
    · intro transaction
      have hnew := s.state.countOf_advance s.cycles.length h.responses r transaction
      have hold := h.counted transaction
      have hcount := hset (·.counts transaction)
      rw [countOf_counters] at hold ⊢
      show Counter.countOf transaction (s.drained.flatMap (·.counters)) +
        Counter.countOf transaction (s.state.advance s.cycles.length r).value.2.counters.values =
          ((s.recordings.set number (s.state.next s.cycles.length r)).countP
            (·.counts transaction) : Int)
      omega
    · intro name
      have hnew := s.state.samplesOf_advance s.cycles.length h.named hp name
      have hold := h.sampled name
      have hcount := hset (·.samples name)
      rw [samplesOf_histograms] at hold ⊢
      show HistogramEntry.samplesOf name (s.drained.flatMap (·.histograms)) +
        HistogramEntry.samplesOf name
          (s.state.advance s.cycles.length r).value.2.histograms.entries.values =
          (s.recordings.set number (s.state.next s.cycles.length r)).countP (·.samples name)
      omega

/-- What a drain takes from the tables it gives to a cycle. -/
theorem Conserved.drain (h : Conserved s) : Conserved (s.step .drain).value := by
  constructor
  · rw [step, drainStep]
    cases s.drain with
    | idle => exact ⟨[], rfl⟩
    | tookCounters | tookHistograms | tookQueue | tookSampler => exact h.responses
  · rw [step, drainStep]
    cases s.drain with
    | tookCounters counters => exact HistogramTable.named_empty s.state.histograms.precision
    | idle | tookHistograms | tookQueue | tookSampler => exact h.named
  · rw [recordings_step_drain]
    exact h.proper
  · rw [counters_step_drain, recordings_step_drain]
    exact h.counted
  · rw [histograms_step_drain, recordings_step_drain]
    exact h.sampled

theorem Conserved.step (h : Conserved s) (step : Step) : Conserved (s.step step).value := by
  cases step with
  | begin span => exact h.begin span
  | advance number => exact h.advance number
  | drain => exact h.drain
  | stage capacity => exact ⟨h.responses, h.named, h.proper, h.counted, h.sampled⟩

theorem conserved_run (precision capacity : Nat) (steps : List Step) :
    Conserved ((new precision capacity).value.run steps).value :=
  run_of_step (fun step _ _ h => h.step step) (conserved_new precision capacity)

/-- Whatever came between their steps, once all recordings are done every request is
counted under its transaction once, and every latency that has a bucket is a sample of
the overall histogram, and one of its name if the registry took it. It does not matter
which of the cycles has what, and what is still in the tables. -/
theorem conserved (precision capacity : Nat) (steps : List Step)
    (h : ∀ r ∈ ((new precision capacity).value.run steps).value.recordings,
      r.outcome?.isSome) :
    let s := ((new precision capacity).value.run steps).value
    s.recordings.map (·.span) = steps.filterMap Step.span? ∧
    (∀ transaction, Counter.countOf transaction s.counters =
      s.recordings.countP (·.outcome?.map (·.transaction) = some transaction)) ∧
    (∀ name ≠ "", HistogramEntry.samplesOf name s.histograms =
      s.recordings.countP fun r =>
        r.outcome? = some (.named name) ∧ r.span.duration.micros < Histogram.ceiling) ∧
    HistogramEntry.samplesOf "" s.histograms =
      s.recordings.countP (·.span.duration.micros < Histogram.ceiling) ∧
    ∀ (t : HistogramTable) (name : String) (d : Duration),
      (t.record name d).events = [] ↔ d.micros < Histogram.ceiling := by
  intro s
  have hs : Conserved s := conserved_run precision capacity steps
  refine ⟨spans_run _ steps, hs.counted, fun name hn => ?_, ?_,
    HistogramTable.events_record_eq_nil_iff⟩
  · rw [hs.sampled]
    refine List.countP_congr fun r hr => ?_
    simp [Recording.samples, hn, Recording.name?_of_done (h r hr)]
  · rw [hs.sampled]
    refine List.countP_congr fun r hr => ?_
    simp [Recording.samples]

/-- The first name is taken in one cycle and filed in the next one, and its response is
counted after the counters of that one were drained. -/
def acrossCycles : List Step :=
  [.begin ⟨"a", "", ⟨1500000⟩, 200, "GET", false⟩, .advance 0,
    .drain, .drain, .drain, .drain, .drain, .advance 0, .stage 3,
    .begin ⟨"b", "", ⟨5000000000000000⟩, 500, "GET", true⟩, .advance 1,
    .drain, .advance 0, .advance 1, .advance 1]

theorem conserved_of_two :
    let s := ((new 2 1).value.run acrossCycles).value
    (∀ r ∈ s.recordings, r.outcome?.isSome) ∧
      Counter.countOf "a" s.counters = 1 ∧ Counter.countOf "b" s.counters = 1 ∧
      HistogramEntry.samplesOf "a" s.histograms = 1 ∧
      HistogramEntry.samplesOf "b" s.histograms = 0 ∧
      HistogramEntry.samplesOf "" s.histograms = 1 := by
  intro s
  have h : ∀ r ∈ s.recordings, r.outcome?.isSome := by decide +kernel
  obtain ⟨-, hcounts, hnamed, hall, -⟩ := conserved 2 1 acrossCycles h
  refine ⟨h, (hcounts "a").trans ?_, (hcounts "b").trans ?_, (hnamed "a" (by decide)).trans ?_,
    (hnamed "b" (by decide)).trans ?_, hall.trans ?_⟩ <;> decide +kernel

end Interleaving
end SpanMetrics
