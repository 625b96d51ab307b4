import SpanMetrics.Proofs.Histogram.Buckets
import SpanMetrics.Proofs.Histogram.Ceiling
import SpanMetrics.Proofs.Histogram.Wire

/-!
# What a histogram resolves

A histogram that is read from its wire form tells each counted latency by the bucket in
which it is: the counts of the buckets are the latencies between their ends. No latency
is told by two buckets or by none, and a bucket is as narrow as the configured figures
ask for. All this is known of the gathered histogram from the geometry of the buckets,
and the wire form loses nothing of it, with a text whenever the counts fit.
-/
namespace SpanMetrics.Histogram

/-- The whole microseconds of the latencies that have a bucket. -/
def counted (ds : List Duration) : List Nat := (ds.map (·.nanos / 1000)).filter (· < 2 ^ 32)

/-- What a histogram at a precision tells of values. -/
structure Resolves (p : Precision) (values : List Nat) (h : Histogram) : Prop where
  precision : h.precision = p
  countAt : ∀ s, h.countAt s = values.countP (Inside (bucket p s))
  /-- Every value is told by one of the buckets in use, and by no other. -/
  covered : ∀ value ∈ values, ∃! c, c ∈ h.counts ∧ Inside (bucket p c.slot) value
  /-- A bucket in use has a value, and its count says how many. -/
  used : ∀ c ∈ h.counts, 0 < c.count ∧ c.count = values.countP (Inside (bucket p c.slot))
  disjoint : ∀ c ∈ h.counts, ∀ other ∈ h.counts, c ≠ other →
    ∀ value, Inside (bucket p c.slot) value → ¬Inside (bucket p other.slot) value
  narrow : ∀ c ∈ h.counts, ∀ value, Inside (bucket p c.slot) value →
    (bucket p c.slot).2 = (bucket p c.slot).1 ∨
      ((bucket p c.slot).2 - (bucket p c.slot).1 + 1) * 10 ^ p.val ≤ value
  total : h.total = values.length

/-- A latency falls into a slot if it has a bucket, and its microseconds are in the one of
the slot. -/
theorem falls_iff (p : Precision) (s : Nat) (d : Duration) :
    Falls p s d ↔ d.nanos / 1000 < 2 ^ 32 ∧ Inside (bucket p s) (d.nanos / 1000) := by
  rw [Falls, d.micros_lt_ceiling_iff]
  refine and_congr_right fun hd => ?_
  have hm : d.micros = d.nanos / 1000 := by
    rw [d.micros_eq]
    omega
  rw [hm, slot_eq_iff]

theorem countAt_gather_eq (p : Precision) (ds : List Duration) (s : Nat) :
    (gather p ds).countAt s = (counted ds).countP (Inside (bucket p s)) := by
  rw [countAt_gather, counted, List.countP_filter, List.countP_map, ← List.countP_eq_length_filter]
  refine List.countP_congr fun d _ => ?_
  simp only [falls_iff, Function.comp_apply, decide_eq_true_eq, Bool.and_eq_true]
  exact and_comm

/-- Two counts of one slot are one. -/
theorem eq_of_slot_eq {h : Histogram} {c other : SlotCount} (hc : c ∈ h.counts)
    (ho : other ∈ h.counts) (hs : c.slot = other.slot) : c = other := by
  have hcount := ((mem_iff_countOf h.increasing h.positive c).1 hc).2
  have hother := ((mem_iff_countOf h.increasing h.positive other).1 ho).2
  rw [hs, hother] at hcount
  cases c
  cases other
  simp_all

/-- A slot in use is the only one that tells its values. -/
theorem existsUnique_count {h : Histogram} {value : Nat} (hpos : 0 < h.countAt (slot p value)) :
    ∃! c, c ∈ h.counts ∧ Inside (bucket p c.slot) value := by
  refine ⟨⟨slot p value, h.countAt (slot p value)⟩, ⟨?_, ?_⟩, ?_⟩
  · exact (mem_iff_countOf h.increasing h.positive _).2 ⟨hpos, rfl⟩
  · exact (slot_eq_iff p _ value).1 rfl
  · rintro c ⟨hc, hi⟩
    refine eq_of_slot_eq hc ((mem_iff_countOf h.increasing h.positive _).2 ⟨hpos, rfl⟩) ?_
    exact ((slot_eq_iff p c.slot value).2 hi).symm

theorem resolves_gather (p : Precision) (ds : List Duration) :
    Resolves p (counted ds) (gather p ds) := by
  have hcount := countAt_gather_eq p ds
  refine ⟨precision_gather p ds, hcount, fun value hv => existsUnique_count ?_, fun c hc => ?_,
    fun c hc other ho hne value hi => not_inside_of_ne (fun hs => hne (eq_of_slot_eq hc ho hs)) hi,
    fun c _ value hi => (bucket_narrow p c.slot).imp_right fun hle => hle.trans hi.1, ?_⟩
  · rw [hcount, List.countP_pos_iff]
    exact ⟨value, hv, decide_eq_true ((slot_eq_iff p _ value).1 rfl)⟩
  · obtain ⟨hpos, he⟩ := (mem_iff_countOf (gather p ds).increasing (gather p ds).positive c).1 hc
    exact ⟨hpos, he.symm.trans (hcount c.slot)⟩
  · rw [total_gather, counted, ← List.countP_eq_length_filter, List.countP_map]
    refine List.countP_congr fun d _ => ?_
    simp only [Function.comp_apply, decide_eq_true_eq, d.micros_lt_ceiling_iff]

namespace Wire

variable (e : Zlib.Encoder)

/-- Latencies have a text exactly if the count of every bucket fits 63 bits. -/
theorem exists_encode_gather_iff (p : Precision) (ds : List Duration) :
    (∃ text, encodeWith (Zlib.compressWith e.answers) (gather p ds) = .ok text) ↔
      ∀ s, (counted ds).countP (Inside (bucket p s)) < 2 ^ 63 := by
  constructor
  · rintro ⟨text, ht⟩ s
    have hsized := gather_sized_of_encodeWith p ht
    rw [← countAt_gather_eq]
    rcases Nat.eq_zero_or_pos ((gather p ds).countAt s) with hz | hpos
    · rw [hz]
      decide
    · -- a slot that counts something is in use
      exact (hsized _ ((mem_iff_countOf (gather p ds).increasing (gather p ds).positive
        ⟨s, (gather p ds).countAt s⟩).2 ⟨hpos, rfl⟩)).2
  · intro h
    refine ⟨_, encodeWith_eq e fun c hc => ?_⟩
    rw [((resolves_gather p ds).used c hc).2]
    exact ⟨(bounds_of_mem_gather p hc).1, h c.slot⟩

/-- The histogram of a name is told on the wire at the configured precision. It has a
text unless some bucket has too many latencies, and the text is read as one that
resolves the latencies recorded under the name since the last drain, of which those
below `2 ^ 32` microseconds are accepted and the others logged. The slots are those
which leading zeros give. -/
theorem wire_resolves (requested : Nat) (calls : List HistogramTable.Call) (name : String) :
    let t := ((HistogramTable.new requested).value.performAll calls).value
    let ds := HistogramTable.latencies name calls
    let values := (ds.map (·.nanos / 1000)).filter (· < 2 ^ 32)
    let encode := encodeWith (Zlib.compressWith e.answers)
    t.precision.val = (if requested ≤ 5 then requested else 2) ∧
    t.entries.get? name = (if ds = [] then none else some (t.entry name)) ∧
    (∀ d, (t.record name d).events = [] ↔ d.nanos / 1000 < 2 ^ 32) ∧
    ((∃ text, encode (t.entry name).histogram = .ok text) ↔
      ∀ s, values.countP (Inside (bucket t.precision s)) < 2 ^ 63) ∧
    (∀ text, encode (t.entry name).histogram = .ok text →
      ∃ h, decode? text = some h ∧ Resolves t.precision values h) ∧
    ∀ value : BitVec 64, Histogram.place t.precision value = slot t.precision value.toNat := by
  intro t ds values encode
  have h : HistogramTable.Holds (.ofRequest requested) calls t :=
    HistogramTable.holds_performAll requested calls
  have hentry : (t.entry name).histogram = gather t.precision ds := by
    rw [h.entry, h.precision]
  refine ⟨?_, ?_, fun d => ?_, ?_, fun text ht => ⟨gather t.precision ds, ?_, ?_⟩,
    place_eq_slot t.precision⟩
  · rw [h.precision, Precision.val_ofRequest]
  · rw [h.entries, h.entry]
  · rw [HistogramTable.events_record_eq_nil_iff, d.micros_lt_ceiling_iff]
  · rw [hentry]
    exact exists_encode_gather_iff e t.precision ds
  · rw [hentry] at ht
    have hsized := gather_sized_of_encodeWith t.precision ht
    obtain rfl := Except.ok.inj ((encodeWith_eq e hsized).symm.trans ht)
    exact decode?_encode e hsized
  · exact resolves_gather t.precision ds

/-- Five latencies at two figures: none at all, the last one with a bucket of its own, two
that share the next bucket, and one that is refused. -/
theorem wire_resolves_of_five :
    let calls : List HistogramTable.Call := [.record "a" ⟨999⟩, .record "a" ⟨255000⟩,
      .record "a" ⟨256000⟩, .record "a" ⟨257999⟩, .record "a" ⟨5000000000000000⟩]
    let t := ((HistogramTable.new 2).value.performAll calls).value
    let encode := encodeWith (Zlib.compressWith Zlib.encoder.answers)
    ∃ text h, encode (t.entry "a").histogram = .ok text ∧ decode? text = some h ∧
      Resolves t.precision [0, 255, 256, 257] h ∧
      [0, 255, 256].map h.countAt = [1, 1, 2] ∧ bucket 2 256 = (256, 257) := by
  intro calls t encode
  obtain ⟨-, -, -, htext, hread, -⟩ := wire_resolves Zlib.encoder 2 calls "a"
  obtain ⟨text, ht⟩ := htext.2 fun s => lt_of_le_of_lt List.countP_le_length (by decide +kernel)
  obtain ⟨h, hd, hres⟩ := hread text ht
  refine ⟨text, h, ht, hd, hres, ?_, by decide +kernel⟩
  simp only [List.map_cons, List.map_nil, hres.countAt]
  decide +kernel

end Wire
end SpanMetrics.Histogram
