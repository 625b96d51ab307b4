import SpanMetrics.Proofs.Histogram.Ceiling

/-!
# Counted or logged

Every latency that is recorded is counted in the entry of its name or logged as
refused, and never both. A recording adds one to the samples or one event to the log,
so over any calls both together grow by the number of calls. No other event is logged,
since an entry can always be made.
-/
namespace SpanMetrics.HistogramTable

/-- The samples of all entries. -/
def samples (t : HistogramTable) : Nat := (t.drain.1.map (·.histogram.total)).sum

theorem samples_eq_sum (t : HistogramTable) :
    (t.samples : Int) = (t.entries.values.map fun e => (e.histogram.total : Int)).sum := by
  rw [samples, Nat.cast_list_sum, List.map_map]
  rfl

/-- A latency adds a sample, if it has a bucket. -/
theorem samples_record (t : HistogramTable) (name : String) (d : Duration) :
    (t.record name d).value.samples =
      t.samples + if d.micros < Histogram.ceiling then 1 else 0 := by
  let e := { t.entry name with histogram := (t.entry name).histogram.observe d }
  -- an entry that is not there yet counts as an empty one
  have hold : ((t.entries.get? name).map fun e => (e.histogram.total : Int)).getD 0 =
      (t.entry name).histogram.total := by
    rw [entry]
    cases t.entries.get? name <;> rfl
  have hnew : ((t.record name d).value.samples : Int) =
      ((t.entries.alter name fun _ => e).values.map fun e => (e.histogram.total : Int)).sum := by
    rw [samples_eq_sum, value_record]
    rfl
  have htotal : e.histogram.total =
      (t.entry name).histogram.total + if d.micros < Histogram.ceiling then 1 else 0 :=
    Histogram.total_observe _ d
  have hsum := Table.sum_values_alter t.entries name (fun _ => e)
    fun e => (e.histogram.total : Int)
  rw [hold, ← samples_eq_sum, ← hnew] at hsum
  omega

/-- A recording is counted or logged. -/
theorem samples_add_events_record (t : HistogramTable) (name : String) (d : Duration) :
    (t.record name d).value.samples + (t.record name d).events.length = t.samples + 1 := by
  rw [samples_record, events_record]
  split <;> rfl

/-- The calls that record latencies under names. -/
def recordings (records : List (String × Duration)) : List Call :=
  records.map fun (name, d) => .record name d

/-- Any number of recordings are counted or logged. -/
theorem samples_add_events_performAll (t : HistogramTable) (records : List (String × Duration)) :
    (t.performAll (recordings records)).value.samples +
        (t.performAll (recordings records)).events.length = t.samples + records.length := by
  induction records generalizing t with
  | nil => rfl
  | cons record records ih =>
    obtain ⟨name, d⟩ := record
    have hstep := t.samples_add_events_record name d
    have hrest := ih (t.record name d).value
    rw [recordings, List.map_cons, performAll_cons, List.length_append, List.length_cons]
    show ((t.record name d).value.performAll (recordings records)).value.samples +
      ((t.record name d).events.length +
        ((t.record name d).value.performAll (recordings records)).events.length) = _
    omega

/-- What recordings log are their refusals, in order. -/
theorem events_performAll (t : HistogramTable) (records : List (String × Duration)) :
    (t.performAll (recordings records)).events =
      (records.filter (2 ^ 32 ≤ ·.2.nanos / 1000)).map fun (_, d) =>
        .say .error ("Failed to record histogram: value to large to record: " ++
          toString (min (d.nanos / 1000) (2 ^ 64 - 1))) := by
  induction records generalizing t with
  | nil => rfl
  | cons record records ih =>
    obtain ⟨name, d⟩ := record
    rw [recordings, List.map_cons, performAll_cons, List.filter_cons]
    show (t.record name d).events ++
      ((t.record name d).value.performAll (recordings records)).events = _
    rw [ih, events_record_eq]
    by_cases hd : d.nanos / 1000 < 2 ^ 32
    · rw [if_pos hd, if_neg (by simpa using hd)]
      rfl
    · rw [if_neg hd, if_pos (by simpa using hd)]
      rfl

/-- A refused latency is not told as an entry that could not be made. -/
theorem refusal_ne_creation (value cause : String) :
    "Failed to record histogram: value to large to record: " ++ value ≠
      "Failed to create histogram: " ++ cause := by
  intro h
  have hc := congrArg (fun text : String => text.toList[10]?) h
  simp only [String.toList_append] at hc
  rw [List.getElem?_append_left (by decide), List.getElem?_append_left (by decide)] at hc
  exact absurd hc (by decide)

/-- Of the latencies recorded since a drain every one is counted in the entry of its
name or logged as refused, with its whole microseconds as far as they fit 64 bits. That
an entry cannot be made is never logged, whatever the table, and a recording leaves the
entries of all other names as they were. -/
theorem recordings_accounted (requested : Nat) (before : List Call)
    (records : List (String × Duration)) :
    let opened := ((new requested).value.performAll before).value.drain.2
    let run := opened.performAll (recordings records)
    opened.precision.val = (if requested ≤ 5 then requested else 2) ∧
    (run.value.drain.1.map (·.histogram.total)).sum + run.events.length = records.length ∧
    run.events = (records.filter (2 ^ 32 ≤ ·.2.nanos / 1000)).map (fun (_, d) =>
      .say .error ("Failed to record histogram: value to large to record: " ++
        toString (min (d.nanos / 1000) (2 ^ 64 - 1)))) ∧
    ∀ (t : HistogramTable) (name : String) (d : Duration),
      t.recordStepwise name d = t.record name d ∧
      (∀ event ∈ (t.recordStepwise name d).events, ∀ cause,
        event.message ≠ some ("Failed to create histogram: " ++ cause)) ∧
      ∀ key, key ≠ name → (t.record name d).value.entries.get? key = t.entries.get? key := by
  intro opened run
  have hprecision : opened.precision = .ofRequest requested :=
    (holds_performAll requested before).precision
  have hempty : opened.samples = 0 := rfl
  refine ⟨?_, ?_, opened.events_performAll records, fun t name d =>
    ⟨t.recordStepwise_eq name d, ?_, fun key hk => ?_⟩⟩
  · rw [hprecision, Precision.val_ofRequest]
  · have haccounts := opened.samples_add_events_performAll records
    rw [hempty, Nat.zero_add] at haccounts
    exact haccounts
  · rw [recordStepwise_eq, events_record_eq]
    intro event he cause hc
    split at he
    · cases he
    · obtain rfl := List.mem_singleton.1 he
      exact refusal_ne_creation _ cause (Option.some.inj hc)
  · rw [get?_record, if_neg hk]

end SpanMetrics.HistogramTable
