import SpanMetrics.Aggregation.Interleaving
import SpanMetrics.Proofs.Aggregation.Steps

/-!
# What a step touches

Steps of recordings and of drains in any order. A step changes what it touches and
leaves the rest, so what every step keeps is kept by any number of them. A drain
only moves: what it takes out of a table it adds to a cycle. Steps that nothing
comes between are the recording of a request and the drain of a state.
-/
namespace SpanMetrics

/-- Only a request that was taken under its own name is about to be filed. -/
theorem Recording.filing?_eq_some {r : Recording} {f : Filing} :
    r.filing? = some f ↔ r.progress = .classified (.named f.name) f.cycle := by
  obtain ⟨span, progress⟩ := r
  obtain ⟨name, cycle⟩ := f
  cases progress with
  | classified c before => cases c <;> simp [filing?]
  | measured | filed | recorded => simp [filing?]

namespace Aggregation

section Advance

variable (s : Aggregation) (cycle before : Nat) (span : CompletedSpan)

theorem advance_measured :
    (s.advance cycle ⟨span, .measured⟩).value =
      (.classified (s.classification span) cycle,
        { s with registry := (s.registry.classify span.transaction span.path).value.2 }) := rfl

theorem advance_named (name : String) :
    (s.advance cycle ⟨span, .classified (.named name) before⟩).value =
      (.filed name, { s with histograms := (s.histograms.record name span.duration).value }) := rfl

/-- A request that was not taken under its own name has no histogram of its own. -/
theorem advance_unnamed {c : Classification} (h : ∀ name, c ≠ .named name) :
    (s.advance cycle ⟨span, .classified c before⟩).value =
      (.recorded c, s.recordResponse (span.response c.transaction)) := by
  cases c with
  | named name => exact absurd rfl (h name)
  | other => rfl
  | unknown => rfl

theorem advance_filed (name : String) :
    (s.advance cycle ⟨span, .filed name⟩).value =
      (.recorded (.named name), s.recordResponse (span.response name)) := rfl

/-- Once a request is classified and has no histogram to go to, only its response is
left. -/
theorem advance_rest {r : Recording} (hm : r.progress ≠ .measured) (hf : r.filing? = none) :
    (s.advance cycle r).value.2.registry = s.registry ∧
      (s.advance cycle r).value.2.histograms = s.histograms ∧
      ({ r with progress := (s.advance cycle r).value.1 } : Recording).filing? = none := by
  obtain ⟨span, progress⟩ := r
  cases progress with
  | measured => exact absurd rfl hm
  | classified c before =>
    cases c with
    | named name => cases hf
    | other | unknown => exact ⟨rfl, rfl, rfl⟩
  | filed | recorded => exact ⟨rfl, rfl, rfl⟩

end Advance

end Aggregation

namespace Interleaving

section Runs

variable (s : Interleaving) (step : Step) (steps : List Step)

theorem run_cons :
    s.run (step :: steps) =
      ⟨((s.step step).value.run steps).value,
        (s.step step).events ++ ((s.step step).value.run steps).events⟩ := rfl

/-- What each of some steps keeps is kept by all of them. -/
theorem run_of_step {s : Interleaving} {steps : List Step} {P : Interleaving → Prop}
    (hstep : ∀ step ∈ steps, ∀ s, P s → P (s.step step).value) (h : P s) :
    P (s.run steps).value := by
  induction steps generalizing s with
  | nil => exact h
  | cons step steps ih =>
    obtain ⟨hfirst, hrest⟩ := List.forall_mem_cons.1 hstep
    rw [run_cons]
    exact ih hrest (hfirst s h)

end Runs

section Steps

variable (s : Interleaving)

theorem step_begin (span : CompletedSpan) :
    (s.step (.begin span)).value =
      { s with
        state := (s.state.recordLatency "" span.duration).value
        recordings := s.recordings ++ [⟨span, .measured⟩] } := rfl

theorem step_advance_of_none {number : Nat} (h : s.recordings[number]? = none) :
    (s.step (.advance number)).value = s := by
  simp [step, h]

theorem step_advance_of_some {number : Nat} {r : Recording}
    (h : s.recordings[number]? = some r) :
    (s.step (.advance number)).value =
      { s with
        state := (s.state.advance s.cycles.length r).value.2
        recordings := s.recordings.set number
          { r with progress := (s.state.advance s.cycles.length r).value.1 }
        filings := s.filings ++ r.filing?.toList } := by
  simp [step, h]

theorem recordings_step_drain : (s.step .drain).value.recordings = s.recordings := by
  rw [step, drainStep]
  cases s.drain <;> rfl

/-- The recordings are those of the requests that came, in order. -/
theorem spans_step (step : Step) :
    (s.step step).value.recordings.map (·.span) =
      s.recordings.map (·.span) ++ step.span?.toList := by
  cases step with
  | begin span =>
    rw [step_begin, List.map_append]
    rfl
  | advance number =>
    cases hr : s.recordings[number]? with
    | none =>
      rw [step_advance_of_none s hr]
      exact (List.append_nil _).symm
    | some r =>
      obtain ⟨hl, rfl⟩ := List.getElem?_eq_some_iff.1 hr
      have hm : number < (s.recordings.map (·.span)).length := by rwa [List.length_map]
      have hs : (s.recordings.map (·.span))[number] = s.recordings[number].span :=
        List.getElem_map _
      rw [step_advance_of_some s hr, List.map_set, ← hs, List.set_getElem_self]
      exact (List.append_nil _).symm
  | drain =>
    rw [recordings_step_drain]
    exact (List.append_nil _).symm
  | stage capacity => exact (List.append_nil _).symm

theorem spans_run (steps : List Step) :
    (s.run steps).value.recordings.map (·.span) =
      s.recordings.map (·.span) ++ steps.filterMap Step.span? := by
  induction steps generalizing s with
  | nil => exact (List.append_nil _).symm
  | cons step steps ih =>
    rw [run_cons, ih, spans_step, List.append_assoc]
    cases hs : step.span? <;> simp [hs]

/-- A drain moves counters. -/
theorem counters_step_drain : (s.step .drain).value.counters = s.counters := by
  rw [step, drainStep]
  cases h : s.drain <;>
    simp [counters, drained, h, DrainProgress.taken, Cycle.empty, Aggregation.drainCounters,
      Aggregation.drainHistograms, Aggregation.drainQueue, Aggregation.drainSampler,
      Aggregation.resetRegistry, Table.values, Table.empty]

/-- A drain moves histograms. -/
theorem histograms_step_drain : (s.step .drain).value.histograms = s.histograms := by
  rw [step, drainStep]
  cases h : s.drain <;>
    simp [histograms, drained, h, DrainProgress.taken, Cycle.empty, Aggregation.drainCounters,
      Aggregation.drainHistograms, Aggregation.drainQueue, Aggregation.drainSampler,
      Aggregation.resetRegistry, HistogramTable.drain, Table.values, Table.empty]

/-- A drain that nothing comes between is the drain of the state. -/
theorem run_drain (h : s.drain = .idle) :
    s.run (List.replicate 5 .drain) =
      ⟨{ s with
        state := s.state.drain.value.2
        cycles := s.cycles ++ [s.state.drain.value.1]
        filings := [] }, s.state.drain.events⟩ := by
  apply Logged.ext
  · simp [List.replicate, run, step, drainStep, h]
    exact ⟨rfl, rfl⟩
  · simp [List.replicate, run, step, drainStep, h]
    rfl

/-- A recording that nothing comes between is the recording of the request. -/
theorem run_record (span : CompletedSpan) :
    let number := s.recordings.length
    let done := s.run [.begin span, .advance number, .advance number, .advance number]
    done.value.state = (s.state.recordSpan span).value ∧
      done.events = (s.state.recordSpan span).events := by
  intro number done
  cases hc : ((s.state.recordLatency "" span.duration).value.classify span.transaction
      span.path).value.1 <;>
    simp [done, number, run, step, Aggregation.advance, Aggregation.recordSpan, hc,
      Aggregation.recordNamed, Classification.transaction]

end Steps

end Interleaving
end SpanMetrics
