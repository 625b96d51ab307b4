import SpanMetrics.Aggregation.Cycle

/-!
# Interleaving

Requests are recorded while others are, and while a drain is under way. A step of a recording and a
step of a drain touch one part of the state each, so each of them is done as a whole; between two
steps of a recording or of a drain there may be any steps of the others. Drains come one after the
other. Cycles are numbered by the drains that were finished before.
-/
namespace SpanMetrics

/-- How far the recording of a request has come. -/
inductive Progress where
  /-- The overall histogram has the latency. -/
  | measured
  /-- The registry has answered, in the cycle with this number. -/
  | classified (c : Classification) (cycle : Nat)
  /-- The histogram of the name has the latency. -/
  | filed (name : String)
  /-- The response is counted, and nothing is left to do. -/
  | recorded (c : Classification)
deriving DecidableEq, Repr

structure Recording where
  span : CompletedSpan
  progress : Progress
deriving DecidableEq, Repr

/-- A name under which a latency was recorded, and the cycle in which the registry took it. -/
structure Filing where
  name : String
  cycle : Nat
deriving DecidableEq, Repr

namespace Recording

/-- What the next step files, if it is the one that adds to the histogram of a name. -/
def filing? (r : Recording) : Option Filing :=
  match r.progress with
  | .classified (.named name) cycle => some ⟨name, cycle⟩
  | _ => none

/-- How the request was classified, once its response is counted. -/
def outcome? (r : Recording) : Option Classification :=
  match r.progress with
  | .recorded c => some c
  | _ => none

end Recording

/-- How far a drain has come, with what it has taken. -/
inductive DrainProgress where
  | idle
  | tookCounters (counters : List Counter)
  | tookHistograms (counters : List Counter) (histograms : List HistogramEntry)
  | tookQueue (counters : List Counter) (histograms : List HistogramEntry) (queue : QueueTotals)
  | tookSampler (counters : List Counter) (histograms : List HistogramEntry) (queue : QueueTotals)
    (sampler : SamplerTotals)

/-- The part of a cycle that a drain has taken. -/
def DrainProgress.taken : DrainProgress → Cycle
  | idle => .empty
  | tookCounters counters => { Cycle.empty with counters }
  | tookHistograms counters histograms => { Cycle.empty with counters, histograms }
  | tookQueue counters histograms queue => { Cycle.empty with counters, histograms, queue }
  | tookSampler counters histograms queue sampler => ⟨counters, histograms, queue, sampler, false⟩

namespace Aggregation

/-- The next step of a recording, in the cycle with this number. -/
def advance (s : Aggregation) (cycle : Nat) (r : Recording) : Logged (Progress × Aggregation) :=
  match r.progress with
  | .measured => do
    let (c, s) ← s.classify r.span.transaction r.span.path
    return (.classified c cycle, s)
  | .classified (.named name) _ => return (.filed name, ← s.recordLatency name r.span.duration)
  | .classified c _ => return (.recorded c, s.recordResponse (r.span.response c.transaction))
  | .filed name => return (.recorded (.named name), s.recordResponse (r.span.response name))
  | .recorded c => return (.recorded c, s)

end Aggregation

structure Interleaving where
  state : Aggregation
  /-- The requests that have come, in order. -/
  recordings : List Recording
  drain : DrainProgress
  /-- The cycles that were drained, in order. -/
  cycles : List Cycle
  /-- What was filed under names since the histograms were last drained. -/
  filings : List Filing

namespace Interleaving

inductive Step where
  /-- A request comes, and the overall histogram gets its latency. -/
  | begin (span : CompletedSpan)
  /-- The recording with this number does its next step, if there is one. -/
  | advance (number : Nat)
  /-- The drain does its next step, or the next drain its first one. -/
  | drain
  | stage (capacity : Nat)

namespace Step

/-- The request that comes with a step. -/
def span? : Step → Option CompletedSpan
  | begin span => some span
  | _ => none

/-- The capacity that a step stages. -/
def capacity? : Step → Option Nat
  | stage capacity => some capacity
  | _ => none

end Step

def new (precision capacity : Nat) : Logged Interleaving := do
  let state ← Aggregation.new precision capacity
  return ⟨state, [], .idle, [], []⟩

def drainStep (s : Interleaving) : Logged Interleaving :=
  match s.drain with
  | .idle =>
    let (counters, state) := s.state.drainCounters
    return { s with state, drain := .tookCounters counters }
  | .tookCounters counters =>
    let (histograms, state) := s.state.drainHistograms
    return { s with state, drain := .tookHistograms counters histograms, filings := [] }
  | .tookHistograms counters histograms =>
    let (queue, state) := s.state.drainQueue
    return { s with state, drain := .tookQueue counters histograms queue }
  | .tookQueue counters histograms queue =>
    let (sampler, state) := s.state.drainSampler
    return { s with state, drain := .tookSampler counters histograms queue sampler }
  | .tookSampler counters histograms queue sampler => do
    let (overflow, state) := s.state.resetRegistry
    let cycle : Cycle := ⟨counters, histograms, queue, sampler, overflow⟩
    Logged.emit (Aggregation.drainNotice cycle)
    return { s with state, drain := .idle, cycles := s.cycles ++ [cycle] }

def step (s : Interleaving) : Step → Logged Interleaving
  | .begin span => do
    let state ← s.state.recordLatency "" span.duration
    return { s with state, recordings := s.recordings ++ [⟨span, .measured⟩] }
  | .advance number =>
    match s.recordings[number]? with
    | none => return s
    | some r => do
      let (progress, state) ← s.state.advance s.cycles.length r
      return { s with
        state
        recordings := s.recordings.set number { r with progress }
        filings := s.filings ++ r.filing?.toList }
  | .drain => s.drainStep
  | .stage capacity =>
    return { s with state := { s.state with registry := s.state.registry.stage capacity } }

/-- Does steps in order. -/
def run : Interleaving → List Step → Logged Interleaving
  | s, [] => return s
  | s, step :: rest => do
    let s ← s.step step
    run s rest

/-- The drained cycles, the last one as far as it was taken. -/
def drained (s : Interleaving) : List Cycle := s.cycles ++ [s.drain.taken]

/-- All counters, those that were drained and those that are in the table. -/
def counters (s : Interleaving) : List Counter :=
  s.drained.flatMap (·.counters) ++ s.state.counters.values

/-- All histograms, those that were drained and those that are in the table. -/
def histograms (s : Interleaving) : List HistogramEntry :=
  s.drained.flatMap (·.histograms) ++ s.state.histograms.entries.values

/-- What was filed under names that the registry took in an earlier cycle. -/
def lateFilings (s : Interleaving) : List Filing := s.filings.filter (·.cycle < s.cycles.length)

/-- The names that were late, each once. -/
def lateNames (s : Interleaving) : List String := (s.lateFilings.map (·.name)).eraseDups

/-- The cycles in which the registry took the late names. -/
def lateCycles (s : Interleaving) : List Nat := (s.lateFilings.map (·.cycle)).eraseDups

end Interleaving
end SpanMetrics
