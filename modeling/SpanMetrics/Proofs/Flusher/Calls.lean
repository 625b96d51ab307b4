import SpanMetrics.Flusher.Calls
import SpanMetrics.Proofs.Aggregation.Isolation
import SpanMetrics.Proofs.Message.Confinement
import SpanMetrics.Proofs.Message.Outcomes

/-!
# A flush takes the cycle once

A flush drains the state before it knows whether there will be a message, and nothing
that happens afterwards gives the cycle back. What the transport answers is logged and
has no other effect. So a flush leaves behind no more than the capacity that was staged
last, and every later message is made of what was recorded after it.
-/
namespace SpanMetrics

/-! ## The log of a message -/

namespace Aggregation

/-- The errors of the histograms that have no wire form, in the order in which they are drained. -/
def histogramErrors (s : Aggregation) : List Log.Event :=
  s.drain.value.1.histograms.filterMap
    (Message.Encoder.ofHistograms (fun e => Histogram.Wire.encode e.histogram)).notice?

theorem state_assemble (s : Aggregation) (context : MessageContext) :
    (s.assemble context).value.2 = s.drain.value.2 := rfl

/-- A snapshot reports the histograms without a wire form and then perhaps its size. -/
theorem errors_snapshot (compress : Bytes → Bytes) (c : Cycle) (context : MessageContext) :
    let E := Message.Encoder.ofHistograms fun e => Histogram.Wire.encodeWith compress e.histogram
    (c.snapshotWith compress context).events.filter (·.level = .error) =
      c.histograms.filterMap E.notice? := by
  intro E
  have hnotices : ∀ event ∈ c.histograms.filterMap E.notice?,
      decide (event.level = .error) = true := by
    intro event h
    obtain ⟨e, -, he⟩ := List.mem_filterMap.1 h
    obtain ⟨cause, -, rfl⟩ := (Message.Encoder.notice?_eq_some_iff _ e event).1 he
    rfl
  unfold Cycle.snapshotWith
  rw [Message.Encoder.encodeHistograms_eq, Message.Encoder.encodeAll_eq, Logged.events_bind,
    List.filter_append, List.filter_eq_self.2 hnotices]
  dsimp only
  cases Bson.write _ with
  | error cause => exact List.append_nil _
  | ok bytes => exact List.append_nil _

/-- Only histograms are reported as errors while a message is made. -/
theorem errors_assemble (s : Aggregation) (context : MessageContext) :
    (s.assemble context).events.filter (·.level = .error) = s.histogramErrors := by
  have hevents : (s.assemble context).events = drainNotice s.drain.value.1 ::
      (s.drain.value.1.snapshotWith Zlib.compress context).events := by
    rw [assemble, assembleWith, Logged.events_bind, Logged.events_bind, Logged.events_pure,
      List.append_nil]
    rfl
  have hnotice : (drainNotice s.drain.value.1).level = .debug := rfl
  rw [hevents, List.filter_cons_of_neg (by rw [hnotice]; decide), errors_snapshot]
  rfl

end Aggregation

namespace Flusher

/-! ## One flush -/

/-- What a flush reports as an error of its own: no message could be made, or the transport
failed to send it. -/
def failure? (f : Flusher) (transport : Transport) (c : Circumstances) : Option Log.Event :=
  match (f.state.assemble (f.context c)).value.1, transport f.sent.length with
  | .error e, _ => some (.say .error ("Failed to build metrics message: " ++ e.message))
  | .ok _, .error e => some (.say .error e.message)
  | .ok _, .ok () => none

/-- A flush answers with the snapshot that could be made, hands over its message and nothing
else, leaves a new state with the precision as it was and the capacity that was staged, and
reports at most one error beside those of histograms. -/
structure Flushed (f : Flusher) (transport : Transport) (c : Circumstances)
    (out : Logged (Option Snapshot × Flusher)) : Prop where
  answer : ∀ s, out.value.1 = some s ↔ (f.state.assemble (f.context c)).value.1 = .ok s
  handed : out.value.2.sent = f.sent ++ (out.value.1.map (·.message)).toList
  drained : out.value.2.state =
    ⟨.new f.state.registry.staged, .empty, ⟨f.state.histograms.precision, .empty⟩, .zero, .zero⟩
  errors : out.events.filter (·.level = .error) =
    f.state.histogramErrors ++ (f.failure? transport c).toList

/-- What comes of a flush, its log apart. The transport has no part in it. -/
theorem value_flush (f : Flusher) (transport : Transport) (c : Circumstances) :
    let answer := (f.state.assemble (f.context c)).value.1.toOption
    (f.flush transport c).value =
      (answer, { f with
        state := f.state.drain.value.2
        sent := f.sent ++ (answer.map (·.message)).toList }) := by
  intro answer
  unfold flush
  cases h : (f.state.assemble (f.context c)).value.1 with
  | error e =>
    have ha : answer = none := congrArg Except.toOption h
    simp only [Logged.value_bind, Logged.value_pure, Aggregation.state_assemble, h, ha,
      Option.map_none, Option.toList_none, List.append_nil]
  | ok s =>
    have ha : answer = some s := congrArg Except.toOption h
    simp only [Logged.value_bind, Logged.value_pure, Aggregation.state_assemble, h, ha, send]
    cases transport f.sent.length <;> rfl

theorem events_flush (f : Flusher) (transport : Transport) (c : Circumstances) :
    (f.flush transport c).events.filter (·.level = .error) =
      f.state.histogramErrors ++ (f.failure? transport c).toList := by
  rw [← f.state.errors_assemble (f.context c)]
  unfold flush failure?
  generalize f.state.assemble (f.context c) = assembled
  obtain ⟨⟨result, state⟩, events⟩ := assembled
  rw [Logged.events_bind, List.filter_append]
  cases result with
  | error e => rfl
  | ok s =>
    dsimp only [send]
    cases transport f.sent.length <;> rfl

theorem flushed_flush (f : Flusher) (transport : Transport) (c : Circumstances) :
    Flushed f transport c (f.flush transport c) := by
  have hvalue := f.value_flush transport c
  refine ⟨fun s => ?_, ?_, ?_, f.events_flush transport c⟩
  · rw [hvalue]
    cases (f.state.assemble (f.context c)).value.1 with
    | error e => exact iff_of_false (fun h => nomatch h) fun h => nomatch h
    | ok snapshot =>
      exact ⟨fun h => congrArg Except.ok (Option.some.inj h),
        fun h => congrArg some (Except.ok.inj h)⟩
  · rw [hvalue]
  · rw [hvalue, f.state.drain_next]

/-! ## What a flush leaves behind -/

/-- Two flushers with the same state, host and interval. What was sent may differ. -/
structure Alike (f g : Flusher) : Prop where
  host : f.host = g.host
  interval : f.interval = g.interval
  state : f.state = g.state

/-- Two flushers that a flush makes alike: their states are new ones in the same way. -/
structure Levelled (f g : Flusher) : Prop where
  host : f.host = g.host
  interval : f.interval = g.interval
  staged : f.state.registry.staged = g.state.registry.staged
  precision : f.state.histograms.precision = g.state.histograms.precision

variable {f g : Flusher}

theorem Levelled.refl (f : Flusher) : Levelled f f := ⟨rfl, rfl, rfl, rfl⟩

theorem Levelled.alike_flush (h : Levelled f g) (transport other : Transport)
    (c d : Circumstances) :
    Alike (f.flush transport c).value.2 (g.flush other d).value.2 := by
  refine ⟨?_, ?_, ?_⟩
  · rw [value_flush, value_flush, h.host]
  · rw [value_flush, value_flush, h.interval]
  · rw [(f.flushed_flush transport c).drained, (g.flushed_flush other d).drained, h.staged,
      h.precision]

theorem Alike.levelled (h : Alike f g) : Levelled f g :=
  ⟨h.host, h.interval, by rw [h.state], by rw [h.state]⟩

theorem value_call_operate (f : Flusher) (transport : Transport) (op : Operation) :
    (f.call transport (.operate op)).value =
      (none, { f with state := (f.state.perform op).value.2 }) := rfl

theorem value_call_flush (f : Flusher) (transport : Transport) (c : Circumstances) :
    (f.call transport (.flush c)).value =
      (some (f.flush transport c).value.1, (f.flush transport c).value.2) := rfl

/-- The same call on both sides. -/
theorem Levelled.call (h : Levelled f g) (transport other : Transport) (call : FlusherCall) :
    Levelled (f.call transport call).value.2 (g.call other call).value.2 := by
  cases call with
  | operate op =>
    rw [value_call_operate, value_call_operate]
    refine ⟨h.host, h.interval, ?_, ?_⟩
    · rw [Aggregation.staged_perform, Aggregation.staged_perform, h.staged]
    · rw [Aggregation.precision_perform, Aggregation.precision_perform, h.precision]
  | flush c =>
    rw [value_call_flush, value_call_flush]
    exact (h.alike_flush transport other c c).levelled

/-- A request that is recorded on one side alone. -/
theorem Levelled.record (h : Levelled f g) (transport : Transport) {call : FlusherCall}
    (hr : call.isRecord) : Levelled (f.call transport call).value.2 g := by
  cases call with
  | flush c => cases hr
  | operate op =>
    cases op with
    | recordSpan span =>
      rw [value_call_operate]
      refine ⟨h.host, h.interval, ?_, ?_⟩
      · rw [Aggregation.staged_perform, ← h.staged]
        rfl
      · rw [Aggregation.precision_perform, h.precision]
    | _ => cases hr

theorem value_callAll_cons (f : Flusher) (transport : Transport) (call : FlusherCall)
    (calls : List FlusherCall) :
    (f.callAll transport (call :: calls)).value =
      ((f.call transport call).value.1.toList ++
          ((f.call transport call).value.2.callAll transport calls).value.1,
        ((f.call transport call).value.2.callAll transport calls).value.2) := rfl

theorem value_callAll_append (f : Flusher) (transport : Transport)
    (calls more : List FlusherCall) :
    (f.callAll transport (calls ++ more)).value =
      ((f.callAll transport calls).value.1 ++
          ((f.callAll transport calls).value.2.callAll transport more).value.1,
        ((f.callAll transport calls).value.2.callAll transport more).value.2) := by
  induction calls generalizing f with
  | nil => rfl
  | cons call calls ih =>
    rw [List.cons_append, value_callAll_cons, ih, value_callAll_cons, List.append_assoc]

/-- The requests of a history may be left out on one side. -/
theorem Levelled.callAll (h : Levelled f g) (transport other : Transport)
    (calls : List FlusherCall) :
    Levelled (f.callAll transport calls).value.2
      (g.callAll other (calls.filter (!·.isRecord))).value.2 := by
  induction calls generalizing f g with
  | nil => exact h
  | cons call calls ih =>
    rw [value_callAll_cons, List.filter_cons]
    split
    · rw [value_callAll_cons]
      exact ih (h.call transport other call)
    · next hr => exact ih (h.record transport (by simpa using hr))

/-! ## Answers and messages -/

theorem Alike.call (h : Alike f g) (transport other : Transport) (call : FlusherCall) :
    (f.call transport call).value.1 = (g.call other call).value.1 ∧
      Alike (f.call transport call).value.2 (g.call other call).value.2 := by
  cases call with
  | operate op =>
    rw [value_call_operate, value_call_operate]
    exact ⟨rfl, h.host, h.interval, by rw [h.state]⟩
  | flush c =>
    have hcontext : f.context c = g.context c := by rw [context, context, h.host, h.interval]
    rw [value_call_flush, value_call_flush]
    refine ⟨?_, h.levelled.alike_flush transport other c c⟩
    rw [value_flush, value_flush, hcontext, h.state]

theorem Alike.answers (h : Alike f g) (transport other : Transport) (calls : List FlusherCall) :
    (f.callAll transport calls).value.1 = (g.callAll other calls).value.1 := by
  induction calls generalizing f g with
  | nil => rfl
  | cons call calls ih =>
    obtain ⟨hanswer, hnext⟩ := h.call transport other call
    rw [value_callAll_cons, value_callAll_cons, hanswer, ih hnext]

/-- Nothing but the log depends on what the transport answers. -/
theorem value_callAll_of_transport (f : Flusher) (transport other : Transport)
    (calls : List FlusherCall) :
    (f.callAll transport calls).value = (f.callAll other calls).value := by
  induction calls generalizing f with
  | nil => rfl
  | cons call calls ih =>
    have hcall : (f.call transport call).value = (f.call other call).value := by
      cases call with
      | operate op => rfl
      | flush c =>
        rw [value_call_flush, value_call_flush, f.value_flush transport, f.value_flush other]
    rw [value_callAll_cons, value_callAll_cons, hcall, ih]

/-- The messages that are handed over are those of the answers, in order. -/
theorem sent_callAll (f : Flusher) (transport : Transport) (calls : List FlusherCall) :
    (f.callAll transport calls).value.2.sent =
      f.sent ++ (f.callAll transport calls).value.1.filterMap fun a => a.map (·.message) := by
  induction calls generalizing f with
  | nil => exact (List.append_nil _).symm
  | cons call calls ih =>
    have hcall : (f.call transport call).value.2.sent = f.sent ++
        (f.call transport call).value.1.toList.filterMap fun a => a.map (·.message) := by
      cases call with
      | operate op => exact (List.append_nil _).symm
      | flush c =>
        rw [value_call_flush, (f.flushed_flush transport c).handed]
        cases (f.flush transport c).value.1 <;> rfl
    rw [value_callAll_cons, ih, hcall, List.filterMap_append, List.append_assoc]

/-- Whatever was called before, a flush takes the cycle once: it answers with the snapshot if
one could be made, hands over its message, reports one error at most and leaves a new
state. The messages of a history are those of its answers. They are the same for every
transport, and those after a flush are the same without the requests before it. -/
theorem flush_takes_cycle (f : Flusher) (transport : Transport) (before after : List FlusherCall)
    (c : Circumstances) :
    let g := (f.callAll transport before).value.2
    let next := (g.flush transport c).value.2
    let calls := before ++ .flush c :: after
    Flushed g transport c (g.flush transport c) ∧
    (f.callAll transport calls).value =
      ((f.callAll transport before).value.1 ++
          (g.flush transport c).value.1 :: (next.callAll transport after).value.1,
        (next.callAll transport after).value.2) ∧
    (f.callAll transport calls).value.2.sent =
      f.sent ++ (f.callAll transport calls).value.1.filterMap (fun a => a.map (·.message)) ∧
    ∀ other : Transport,
      (f.callAll other calls).value = (f.callAll transport calls).value ∧
      let bare := (f.callAll other (before.filter (!·.isRecord))).value.2
      ((bare.flush other c).value.2.callAll other after).value.1 =
        (next.callAll transport after).value.1 := by
  intro g next calls
  refine ⟨g.flushed_flush transport c, ?_, f.sent_callAll transport calls, fun other => ⟨?_, ?_⟩⟩
  · rw [value_callAll_append, value_callAll_cons]
    rfl
  · exact f.value_callAll_of_transport other transport calls
  · have hlevelled := (Levelled.refl f).callAll transport other before
    exact ((hlevelled.alike_flush transport other c c).answers transport other after).symm

end Flusher
end SpanMetrics
