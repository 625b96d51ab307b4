import SpanMetrics.Proofs.Message.Failure

/-!
# Totals of a history

What the plain totals tell: of each kind of change the amounts since the totals were last
taken, added up at 64 bits, and the largest mark if it is above zero. A drain of the
whole state takes them as well as a drain of their own does. An operation changes one
total or none, so the invariant is kept kind by kind, and what a look, a drain or a
message tells is read off it.
-/
namespace SpanMetrics

/-! ## Changes -/

/-- What a change adds, or the mark that it sets. -/
def QueueChange.amount : QueueChange → Int64
  | sent n | overflowed n | failed n | events n | length n => n

/-- The amounts of the changes of a kind, in order. -/
def QueueChange.amounts (kind : Int64 → QueueChange) (changes : List QueueChange) : List Int64 :=
  (changes.filter fun c => c = kind c.amount).map amount

/-- A sum at 64 bits. -/
def sum64 (amounts : List Int64) : Int64 := .ofInt (amounts.map Int64.toInt).sum

/-- The largest of some marks, zero if none is above it. -/
def highest (marks : List Int64) : Int := (marks.map Int64.toInt).foldl max 0

/-- What the totals of the queue tell of changes. -/
structure QueueTotals.Tells (changes : List QueueChange) (q : QueueTotals) : Prop where
  sent : q.sent = sum64 (QueueChange.amounts .sent changes)
  overflowed : q.overflowed = sum64 (QueueChange.amounts .overflowed changes)
  failed : q.failed = sum64 (QueueChange.amounts .failed changes)
  events : q.events = sum64 (QueueChange.amounts .events changes)
  largest : q.largest.toInt = highest (QueueChange.amounts .length changes)

/-- What the totals of the sampler tell of its decisions. -/
structure SamplerTotals.Tells (decisions : List SamplerDecision) (t : SamplerTotals) : Prop where
  requested : t.requested = .ofInt (decisions.count .requested)
  sampled : t.sampled = .ofInt (decisions.count .sampled)
  limited : t.limited = .ofInt (decisions.count .limited)
  traced : t.traced = .ofInt (decisions.count .traced)
  through : t.through = .ofInt (decisions.count .through)

theorem sum64_concat (amounts : List Int64) (n : Int64) :
    sum64 (amounts ++ [n]) = sum64 amounts + n := by
  rw [sum64, List.map_append, List.sum_append, List.map_singleton, List.sum_singleton,
    Int64.ofInt_add, Int64.ofInt_toInt]
  rfl

theorem highest_concat (marks : List Int64) (n : Int64) :
    highest (marks ++ [n]) = max (highest marks) n.toInt := by
  rw [highest, List.map_append, List.map_singleton, List.foldl_concat]
  rfl

theorem QueueChange.amounts_concat (kind : Int64 → QueueChange) (changes : List QueueChange)
    (c : QueueChange) :
    amounts kind (changes ++ [c]) =
      amounts kind changes ++ if c = kind c.amount then [c.amount] else [] := by
  rw [amounts, List.filter_append, List.map_append, ← amounts]
  by_cases h : c = kind c.amount
  · have hd : decide (c = kind c.amount) = true := decide_eq_true h
    rw [if_pos h, List.filter_singleton, hd]
    rfl
  · have hd : decide (c = kind c.amount) = false := decide_eq_false h
    rw [if_neg h, List.filter_singleton, hd]
    rfl

theorem QueueTotals.tells_zero : zero.Tells [] := ⟨rfl, rfl, rfl, rfl, rfl⟩

theorem SamplerTotals.tells_zero : zero.Tells [] := ⟨rfl, rfl, rfl, rfl, rfl⟩

/-- A mark raises the largest length to it, and touches nothing else. -/
theorem QueueTotals.apply_length (q : QueueTotals) (n : Int64) :
    q.apply (.length n) = { q with largest := (q.apply (.length n)).largest } ∧
      (q.apply (.length n)).largest.toInt = max q.largest.toInt n.toInt := by
  simp only [QueueTotals.apply]
  split
  · next hlt =>
    rw [Int64.lt_iff_toInt_lt] at hlt
    exact ⟨rfl, (max_eq_right hlt.le).symm⟩
  · next hge =>
    rw [Int64.lt_iff_toInt_lt, not_lt] at hge
    exact ⟨rfl, (max_eq_left hge).symm⟩

/-- A change is added to the total of its kind and to no other. -/
theorem QueueTotals.Tells.apply {changes : List QueueChange} {q : QueueTotals}
    (h : q.Tells changes) (c : QueueChange) : (q.apply c).Tells (changes ++ [c]) := by
  obtain ⟨hsent, hoverflowed, hfailed, hevents, hlargest⟩ := h
  cases c with
  | length n =>
    obtain ⟨hrest, hmax⟩ := q.apply_length n
    rw [hrest]
    clear hrest
    constructor <;> simp [QueueChange.amounts_concat, QueueChange.amount, highest_concat, *]
  | _ n =>
    constructor <;>
      simp [QueueTotals.apply, QueueChange.amounts_concat, QueueChange.amount, sum64_concat, *]

theorem SamplerTotals.Tells.count {decisions : List SamplerDecision} {t : SamplerTotals}
    (h : t.Tells decisions) (d : SamplerDecision) : (t.count d).Tells (decisions ++ [d]) := by
  obtain ⟨hrequested, hsampled, hlimited, htraced, hthrough⟩ := h
  cases d <;> constructor <;>
    simp [SamplerTotals.count, List.count_append, Int64.ofInt_add, *]

/-! ## Histories -/

namespace Operation

def change? : Operation → Option QueueChange
  | change c => some c
  | _ => none

def decision? : Operation → Option SamplerDecision
  | count d => some d
  | _ => none

/-- Whether an operation takes the totals of the queue. -/
def takesQueue : Operation → Bool
  | drainQueue | drain => true
  | _ => false

/-- Whether an operation takes the totals of the sampler. -/
def takesSampler : Operation → Bool
  | drainSampler | drain => true
  | _ => false

/-- The operations after the last one of a kind. -/
def since (takes : Operation → Bool) (ops : List Operation) : List Operation :=
  (ops.reverse.takeWhile (!takes ·)).reverse

/-- What is read off the operations since the last one of a kind. -/
theorem filterMap_since_concat {α : Type} (takes : Operation → Bool) (f : Operation → Option α)
    (ops : List Operation) (op : Operation) :
    (since takes (ops ++ [op])).filterMap f =
      if takes op then [] else (since takes ops).filterMap f ++ (f op).toList := by
  rw [since, List.reverse_concat, List.takeWhile_cons]
  cases takes op
  · rw [Bool.not_false, if_pos rfl, List.reverse_cons, List.filterMap_append]
    cases hf : f op <;> simp [since, hf]
  · rfl

/-- The changes of the queue since its totals were last taken. -/
def changes (ops : List Operation) : List QueueChange := (since takesQueue ops).filterMap change?

/-- The decisions of the sampler since its totals were last taken. -/
def decisions (ops : List Operation) : List SamplerDecision :=
  (since takesSampler ops).filterMap decision?

end Operation

namespace Aggregation

variable (s : Aggregation)

theorem totals_recordSpan (span : CompletedSpan) :
    (s.recordSpan span).value.queue = s.queue ∧ (s.recordSpan span).value.sampler = s.sampler := by
  have hnamed : ∀ (s : Aggregation) (c : Classification), (s.recordNamed c span.duration).value =
      { s with histograms := recordClassified s.histograms c span.duration } := by
    intro s c
    cases c <;> rfl
  simp [recordSpan, recordResponse, classify, recordLatency, hnamed]

theorem queue_perform (op : Operation) :
    (s.perform op).value.2.queue =
      if op.takesQueue then .zero else op.change?.elim s.queue s.queue.apply := by
  cases op with
  | recordSpan span => exact (s.totals_recordSpan span).1
  | _ => rfl

theorem sampler_perform (op : Operation) :
    (s.perform op).value.2.sampler =
      if op.takesSampler then .zero else op.decision?.elim s.sampler s.sampler.count := by
  cases op with
  | recordSpan span => exact (s.totals_recordSpan span).2
  | _ => rfl

/-- What the totals of a state tell of the history before it. -/
structure TellsTotals (ops : List Operation) (s : Aggregation) : Prop where
  queue : s.queue.Tells (Operation.changes ops)
  sampler : s.sampler.Tells (Operation.decisions ops)

variable {s} {ops : List Operation}

theorem TellsTotals.perform (h : TellsTotals ops s) (op : Operation) :
    TellsTotals (ops ++ [op]) (s.perform op).value.2 := by
  constructor
  · rw [queue_perform, Operation.changes, Operation.filterMap_since_concat]
    split
    · exact QueueTotals.tells_zero
    · cases op.change? with
      | none => rw [Option.toList_none, List.append_nil]; exact h.queue
      | some c => exact h.queue.apply c
  · rw [sampler_perform, Operation.decisions, Operation.filterMap_since_concat]
    split
    · exact SamplerTotals.tells_zero
    · cases op.decision? with
      | none => rw [Option.toList_none, List.append_nil]; exact h.sampler
      | some d => exact h.sampler.count d

theorem TellsTotals.performAll (h : TellsTotals ops s) (more : List Operation) :
    TellsTotals (ops ++ more) (s.performAll more).value.2 := by
  induction more generalizing s ops with
  | nil =>
    rw [List.append_nil]
    exact h
  | cons op more ih =>
    have hstep := ih (h.perform op)
    rwa [List.append_assoc] at hstep

theorem tellsTotals_performAll (requested capacity : Nat) (ops : List Operation) :
    TellsTotals ops ((new requested capacity).value.performAll ops).value.2 := by
  have hnew : TellsTotals [] (new requested capacity).value := by
    rw [value_new]
    exact ⟨QueueTotals.tells_zero, SamplerTotals.tells_zero⟩
  exact hnew.performAll ops

/-! ## Answers -/

/-- The answers of a history are those of its parts, the later ones given by the state
after the earlier ones. -/
theorem performAll_append (s : Aggregation) (ops more : List Operation) :
    (s.performAll (ops ++ more)).value =
      ((s.performAll ops).value.1 ++ ((s.performAll ops).value.2.performAll more).value.1,
        ((s.performAll ops).value.2.performAll more).value.2) := by
  induction ops generalizing s with
  | nil => rfl
  | cons op ops ih =>
    have hrest := ih (s.perform op).value.2
    have hcons : ∀ rest, (s.performAll (op :: rest)).value =
        ((s.perform op).value.1 :: ((s.perform op).value.2.performAll rest).value.1,
          ((s.perform op).value.2.performAll rest).value.2) := fun _ => rfl
    rw [List.cons_append, hcons, hcons, hrest]
    rfl

theorem length_answers (s : Aggregation) (ops : List Operation) :
    (s.performAll ops).value.1.length = ops.length := by
  induction ops generalizing s with
  | nil => rfl
  | cons op ops ih => exact congrArg Nat.succ (ih (s.perform op).value.2)

/-- The answer of an operation within a history. -/
theorem answer_performAll (s : Aggregation) (before after : List Operation) (op : Operation) :
    (s.performAll (before ++ op :: after)).value.1[before.length]? =
      some ((s.performAll before).value.2.perform op).value.1 := by
  have hl := s.length_answers before
  rw [performAll_append, List.getElem?_append_right hl.le, hl, Nat.sub_self]
  rfl

/-- A state that no counter was recorded in by hand gives a message. -/
theorem exists_assembled (compress : Bytes → Bytes) (requested capacity : Nat)
    {ops : List Operation} (hops : ∀ update, .recordCounter update ∉ ops)
    (context : MessageContext) :
    ∃ snapshot, (((new requested capacity).value.performAll ops).value.2.assembleWith compress
      context).value.1 = .ok snapshot := by
  have hnew : (new requested capacity).value.counters.OfResponses := by
    rw [value_new]
    exact ⟨[], rfl⟩
  obtain ⟨rs, hrs⟩ := ofResponses_performAll hnew hops
  have hvalues := (counters_drain _).trans (congrArg Table.values hrs)
  exact ⟨_, assembled_of_badName? compress context (Cycle.badName?_of_responses rs hvalues)⟩

/-- Whatever history goes before, a look at the totals and each of the three ways to take
them give the amounts of every kind since they were last taken, and a look leaves no
trace in what comes after. A message has the same totals at the head of its
measurements, under their names, whatever compresses the histograms; there is a message
if no counter was recorded by hand. -/
theorem totals_told (z : Zlib.Encoder) (requested capacity : Nat) (before after : List Operation)
    (context : MessageContext) :
    let start := (new requested capacity).value
    let s := (start.performAll before).value.2
    let answer := fun op => (start.performAll (before ++ op :: after)).value.1[before.length]?
    s.queue.Tells (Operation.changes before) ∧ s.sampler.Tells (Operation.decisions before) ∧
    answer .peekQueue = some (.queue s.queue) ∧ answer .drainQueue = some (.queue s.queue) ∧
    answer .drainSampler = some (.sampler s.sampler) ∧
    (∃ c, answer .drain = some (.cycle c) ∧ c.queue = s.queue ∧ c.sampler = s.sampler) ∧
    (start.performAll (before ++ .peekQueue :: after)).value =
      ((start.performAll before).value.1 ++ .queue s.queue :: (s.performAll after).value.1,
        (start.performAll (before ++ after)).value.2) ∧
    ((∀ update, .recordCounter update ∉ before) →
      ∃ snapshot, (s.assembleWith z.compress context).value.1 = .ok snapshot) ∧
    ∀ snapshot, (s.assembleWith z.compress context).value.1 = .ok snapshot →
      (snapshot.message.length < 2 ^ 31 → (Bson.read? snapshot.message).isSome) ∧
      ∀ d, Bson.read? snapshot.message = some d →
        (Message.listed d "measurements").take 10 =
          List.map (fun (name, n) => [("name", .string name), ("value", .int64 n)])
            [("RequestCount", s.sampler.requested), ("TraceCount", s.sampler.traced),
              ("TokenBucketExhaustionCount", s.sampler.limited),
              ("SampleCount", s.sampler.sampled), ("ThroughTraceCount", s.sampler.through),
              ("NumSent", s.queue.sent), ("NumOverflowed", s.queue.overflowed),
              ("NumFailed", s.queue.failed), ("TotalEvents", s.queue.events),
              ("QueueLargest", s.queue.largest)] := by
  intro start s answer
  have htells := tellsTotals_performAll requested capacity before
  have hanswer : ∀ op, answer op = some (s.perform op).value.1 :=
    start.answer_performAll before after
  refine ⟨htells.queue, htells.sampler, hanswer _, hanswer _, hanswer _, ⟨_, hanswer _, rfl, rfl⟩,
    ?_, fun h => ?_, fun snapshot hs => ⟨fun hl => ?_, fun d hd => ?_⟩⟩
  · rw [performAll_append, performAll_append]
    rfl
  · exact exists_assembled z.compress requested capacity h context
  · rw [assembled_eq] at hs
    rw [Cycle.read?_of_snapshot hs (by omega)]
    rfl
  · rw [assembled_eq] at hs
    obtain rfl := Cycle.eq_document_of_read? hs hd
    obtain ⟨counters, hl, -⟩ :=
      (Message.layout_document z s.drain.value.1 context).listed_measurements
    rw [hl]
    rfl

/-- The totals of the queue were taken once, with what came before. After that they went
past 64 bits and had marks in both directions; the totals of the sampler were looked at
by nobody. -/
theorem totals_told_of_drained :
    let before : List Operation := [.change (.sent 3), .change (.length 9), .count .requested,
      .drainQueue, .change (.sent 9223372036854775807), .change (.failed (-4)), .count .through,
      .peekQueue, .change (.sent 1), .change (.length (-2)), .change (.length 5),
      .change (.length 4), .count .requested]
    let s := ((new 2 10).value.performAll before).value.2
    let context : MessageContext := ⟨default, 30, .none, [], 0⟩
    s.queue = ⟨-9223372036854775808, 0, -4, 0, 5⟩ ∧ s.sampler = ⟨2, 0, 0, 0, 1⟩ ∧
    s.queue.Tells [.sent 9223372036854775807, .failed (-4), .sent 1, .length (-2), .length 5,
      .length 4] ∧
    s.sampler.Tells [.requested, .through, .requested] ∧
    ∃ snapshot d, (s.assemble context).value.1 = .ok snapshot ∧
      Bson.read? snapshot.message = some d ∧
      (Message.listed d "measurements").take 10 =
        List.map (fun (name, n) => [("name", .string name), ("value", .int64 n)])
          [("RequestCount", 2), ("TraceCount", 0), ("TokenBucketExhaustionCount", 0),
            ("SampleCount", 0), ("ThroughTraceCount", 1), ("NumSent", -9223372036854775808),
            ("NumOverflowed", 0), ("NumFailed", -4), ("TotalEvents", 0), ("QueueLargest", 5)] := by
  intro before s context
  have hb : s.drain.value.1.badName? = none := by decide +kernel
  have hs := assembled_of_badName? Zlib.encoder.compress context hb
  have hl : (Bson.enclose
      (Bson.fieldsBytes (s.drain.value.1.document Zlib.compress context))).length < 2 ^ 31 := by
    decide +kernel
  obtain ⟨hqueue, hsampler, -, -, -, -, -, -, hmessage⟩ :=
    totals_told Zlib.encoder 2 10 before [] context
  obtain ⟨hread, hten⟩ := hmessage _ hs
  obtain ⟨d, hd⟩ := Option.isSome_iff_exists.1 (hread hl)
  exact ⟨by decide +kernel, by decide +kernel, hqueue, hsampler, _, d, hs, hd, hten d hd⟩

end Aggregation
end SpanMetrics
