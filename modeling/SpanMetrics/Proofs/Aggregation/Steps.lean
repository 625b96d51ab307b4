import SpanMetrics.Aggregation.Operation

/-!
# What an operation touches

The parts of the state after one operation. A span reaches the registry, the
histograms and the counters, and what it does to each of them depends on the
registry before it and on nothing else of the state; every other operation
touches one part. The run lemmas of later modules are inductions over these.
-/
namespace SpanMetrics

/-- The precision in force: the one that was requested, if histograms can have it. -/
def Precision.ofRequest (requested : Nat) : Precision := (ofNat? requested).getD standard

namespace Aggregation

/-- How a span is counted in a state. -/
def classification (s : Aggregation) (span : CompletedSpan) : Classification :=
  (s.registry.classify span.transaction span.path).value.1

/-- What a request does to the histograms besides the overall one. -/
def recordClassified (t : HistogramTable) (c : Classification) (d : Duration) : HistogramTable :=
  match c with
  | .named name => (t.record name d).value
  | _ => t

variable (s : Aggregation) (span : CompletedSpan)

@[simp] theorem registry_recordNamed (c : Classification) (d : Duration) :
    (s.recordNamed c d).value.registry = s.registry := by
  cases c <;> rfl

@[simp] theorem counters_recordNamed (c : Classification) (d : Duration) :
    (s.recordNamed c d).value.counters = s.counters := by
  cases c <;> rfl

@[simp] theorem histograms_recordNamed (c : Classification) (d : Duration) :
    (s.recordNamed c d).value.histograms = recordClassified s.histograms c d := by
  cases c <;> rfl

theorem registry_recordSpan :
    (s.recordSpan span).value.registry =
      (s.registry.classify span.transaction span.path).value.2 := by
  simp [recordSpan, recordResponse, classify, recordLatency]

theorem counters_recordSpan :
    (s.recordSpan span).value.counters =
      s.counters.recordResponse (span.response (s.classification span).transaction) := by
  simp [recordSpan, recordResponse, classify, recordLatency, classification]

theorem histograms_recordSpan :
    (s.recordSpan span).value.histograms =
      recordClassified (s.histograms.record "" span.duration).value (s.classification span)
        span.duration := by
  simp [recordSpan, recordResponse, classify, recordLatency, classification]

theorem counters_recordResponse (r : ResponseTime) :
    (s.recordResponse r).counters = s.counters.recordResponse r := by
  rw [recordResponse]

theorem perform_recordSpan :
    (s.perform (.recordSpan span)).value.2 = (s.recordSpan span).value := rfl

theorem perform_recordResponse (r : ResponseTime) :
    (s.perform (.recordResponse r)).value.2 = s.recordResponse r := rfl

/-- A history is its first operation and then the others. -/
theorem performAll_cons (op : Operation) (ops : List Operation) :
    (s.performAll (op :: ops)).value.2 =
      ((s.perform op).value.2.performAll ops).value.2 := rfl

theorem counters_drain : s.drain.value.1.counters = s.counters.values := rfl

/-- A new state is empty, with a precision that histograms can have. -/
theorem value_new (requested capacity : Nat) :
    (new requested capacity).value =
      ⟨.new capacity, .empty, ⟨.ofRequest requested, .empty⟩, .zero, .zero⟩ := by
  unfold new HistogramTable.new Precision.ofRequest
  cases Precision.ofNat? requested <;> rfl

theorem ofNat?_val (p : Precision) : Precision.ofNat? p.val = some p := by
  rw [Precision.ofNat?, dif_pos p.isLt]

/-- A precision that histograms can have is taken without a word. -/
theorem new_val (p : Precision) (capacity : Nat) :
    new p.val capacity = ⟨⟨.new capacity, .empty, ⟨p, .empty⟩, .zero, .zero⟩, []⟩ := by
  rw [new, HistogramTable.new, ofNat?_val]
  rfl

/-- A state at the start of a cycle, with the precision and the capacity in force. -/
inductive Opened : Precision → Nat → Aggregation → Prop
  | created (p : Precision) (capacity : Nat) : Opened p capacity (new p.val capacity).value
  | drained (s : Aggregation) :
      Opened s.histograms.precision s.registry.staged s.drain.value.2

theorem Opened.eq {p : Precision} {capacity : Nat} {s : Aggregation} (h : Opened p capacity s) :
    s = ⟨.new capacity, .empty, ⟨p, .empty⟩, .zero, .zero⟩ := by
  cases h with
  | created p capacity => rw [new_val]
  | drained s => rfl

end Aggregation
end SpanMetrics
