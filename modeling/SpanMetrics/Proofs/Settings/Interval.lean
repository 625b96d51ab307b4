import SpanMetrics.Proofs.Flusher.Calls
import SpanMetrics.Proofs.Settings.Environment

/-!
# The announced interval

A message announces the time until the next one in whole seconds. Settings are valid
with any time above zero, so what they announce is zero for a time below one second,
the largest number of its type for one beyond that, and the whole seconds of the time
in between. The environment gives whole seconds, and never announces zero.
-/
namespace SpanMetrics

theorem Duration.toInt_wireSecs (d : Duration) :
    d.wireSecs.toInt = min (d.secs : Int) (2 ^ 31 - 1) := by
  have hlt : min d.secs (Width.half32 - 1) < 2 ^ 31 := by
    have : Width.half32 = 2 ^ 31 := rfl
    omega
  rw [wireSecs, Int32.toInt_ofNat_of_lt hlt, Width.half32]
  omega

namespace Message

/-- A message tells its reader a number of seconds as the interval. -/
def Announces (message : Bytes) (secs : Int32) : Prop :=
  ∃ d, Bson.write d = .ok message ∧
    (message.length < 2 ^ 31 → Bson.read? message = some d) ∧
    Bson.field? d "MetricsFlushInterval" = some (.int32 secs)

theorem announces_of_snapshot (z : Zlib.Encoder) {c : Cycle} {context : MessageContext}
    {s : Snapshot} (h : (c.snapshotWith z.compress context).value = .ok s) :
    Announces s.message context.interval :=
  ⟨c.document z.compress context, (Cycle.write_of_snapshot h).2,
    fun hl => Cycle.read?_of_snapshot h (by omega), (layout_document z c context).interval⟩

end Message

theorem Flusher.announces_of_flush {f : Flusher} {transport : Transport} {c : Circumstances}
    {s : Snapshot} (h : (f.flush transport c).value.1 = some s) :
    Message.Announces s.message f.interval.wireSecs := by
  have hassembled := ((f.flushed_flush transport c).answer s).1 h
  rw [Aggregation.assemble, Aggregation.assembled_eq] at hassembled
  exact Message.announces_of_snapshot Zlib.encoder hassembled

namespace Settings

theorem validate_eq_ok_iff {s : Settings} :
    s.validate = .ok () ↔ s.precision ≤ 5 ∧ 0 < s.capacity ∧ 0 < s.interval.nanos := by
  unfold validate
  split
  · next h => exact iff_of_false (fun h => nomatch h) (by omega)
  · split
    · next h => exact iff_of_false (fun h => nomatch h) (by omega)
    · split
      · next h => exact iff_of_false (fun h => nomatch h) (by omega)
      · exact iff_of_true rfl (by omega)

/-- Valid settings announce the whole seconds of their interval, as many as the type can hold.
That is no number below zero, and it is zero exactly for an interval that is below one second.
Every message that is made with it, and every message of a flusher with this interval, tells
its reader the same number. -/
theorem announced_of_valid {s : Settings} (h : s.validate = .ok ()) :
    let announced := s.intervalSecs.toInt
    0 ≤ announced ∧ announced ≤ 2 ^ 31 - 1 ∧
    (s.interval.secs < 2 ^ 31 → announced = s.interval.secs) ∧
    (1 ≤ announced ↔ 10 ^ 9 ≤ s.interval.nanos) ∧
    (announced = 0 ↔ 0 < s.interval.nanos ∧ s.interval.nanos < 10 ^ 9) ∧
    (∀ (z : Zlib.Encoder) (c : Cycle) (context : MessageContext) (snapshot : Snapshot),
      context.interval = s.intervalSecs →
        (c.snapshotWith z.compress context).value = .ok snapshot →
          Message.Announces snapshot.message s.intervalSecs) ∧
    ∀ (f : Flusher) (transport : Transport) (c : Circumstances) (snapshot : Snapshot),
      f.interval = s.interval → (f.flush transport c).value.1 = some snapshot →
        Message.Announces snapshot.message s.intervalSecs := by
  intro announced
  have hannounced : announced = min (s.interval.secs : Int) (2 ^ 31 - 1) :=
    s.interval.toInt_wireSecs
  have hsecs : s.interval.secs = s.interval.nanos / 1000000000 := rfl
  obtain ⟨-, -, hpositive⟩ := validate_eq_ok_iff.1 h
  refine ⟨by omega, by omega, fun _ => by omega, by omega, by omega, ?_, ?_⟩
  · intro z c context snapshot hinterval hs
    rw [← hinterval]
    exact Message.announces_of_snapshot z hs
  · intro f transport c snapshot hinterval hs
    rw [intervalSecs, ← hinterval]
    exact Flusher.announces_of_flush hs

/-- The longest time there is. -/
theorem announced_of_valid_of_longest :
    let s : Settings := ⟨0, 1, .ofParts 18446744073709551615 999999999, none⟩
    s.validate = .ok () ∧ 1 ≤ s.intervalSecs.toInt ∧ s.intervalSecs.toInt ≤ 2 ^ 31 - 1 ∧
      ¬ s.intervalSecs.toInt = 0 ∧
      ∀ snapshot, (Cycle.empty.snapshot ⟨default, s.intervalSecs, .none, [], 0⟩).value =
        .ok snapshot → Message.Announces snapshot.message s.intervalSecs := by
  intro s
  have hvalid : s.validate = .ok () := by decide
  obtain ⟨-, hle, -, hone, hzero, hmessage, -⟩ := announced_of_valid hvalid
  refine ⟨hvalid, hone.2 (by decide), hle, fun h => ?_,
    fun snapshot => hmessage Zlib.encoder _ _ snapshot rfl⟩
  exact absurd (hzero.1 h).2 (by decide)

/-- Half a second is a valid time between two messages, and each of them announces none. -/
theorem half_second_announced_as_zero :
    let s : Settings := { standard with interval := .ofMillis 500 }
    s.validate = .ok () ∧ s.intervalSecs = 0 ∧
      ∃ snapshot, (Cycle.empty.snapshot ⟨default, s.intervalSecs, .none, [], 0⟩).value =
        .ok snapshot ∧ Message.Announces snapshot.message s.intervalSecs := by
  intro s
  have hs : (Cycle.empty.snapshot ⟨default, s.intervalSecs, .none, [], 0⟩).value = .ok _ :=
    Cycle.value_snapshot Zlib.compress _ _
  exact ⟨by decide, by decide, _, hs, Message.announces_of_snapshot Zlib.encoder hs⟩

/-- Settings from the environment announce one second at least. -/
theorem one_le_intervalSecs_ofEnvironment (e : Environment) :
    1 ≤ (ofEnvironment e).value.intervalSecs.toInt := by
  obtain ⟨secs, hsecs, hinterval⟩ := (follows_ofEnvironment e).interval
  have hpositive : 1 ≤ secs ∧ secs < 2 ^ 64 :=
    hsecs.allowed (show 1 ≤ 30 ∧ 30 < 2 ^ 64 by decide)
  have hwhole : (ofEnvironment e).value.interval.secs = secs := by
    rw [hinterval]
    show (secs * 1000000000 + 0) / 1000000000 = secs
    omega
  rw [intervalSecs, Duration.toInt_wireSecs, hwhole]
  omega

end Settings
end SpanMetrics
