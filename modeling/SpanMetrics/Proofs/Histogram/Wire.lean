import SpanMetrics.Histogram.Wire
import SpanMetrics.Proofs.Histogram.Payload
import SpanMetrics.Proofs.Table.Values
import SpanMetrics.Proofs.Zlib.Encoder

/-!
# Reading back the wire form

The text of a histogram gives back the histogram, through all of its layers: the
base64 text, the frame with cookie and length, the compressed stream, the binary
form. Compression may be any encoder's; of its streams only completeness and a
bound on their length are used.
-/
namespace SpanMetrics

namespace HistogramTable

/-- The table after latencies, each recorded under a name, in order. -/
def recordAll (t : HistogramTable) (records : List (String × Duration)) : HistogramTable :=
  records.foldl (fun t record => (t.record record.1 record.2).value) t

theorem recordAll_append_singleton (t : HistogramTable) (records : List (String × Duration))
    (name : String) (d : Duration) :
    t.recordAll (records ++ [(name, d)]) = ((t.recordAll records).record name d).value := by
  rw [recordAll, List.foldl_concat]
  rfl

theorem precision_recordAll (t : HistogramTable) (records : List (String × Duration)) :
    (t.recordAll records).precision = t.precision := by
  induction records using List.reverseRecOn with
  | nil => rfl
  | append_singleton records record ih =>
    rw [recordAll_append_singleton, precision_record, ih]

/-- An entry was gathered from some of the latencies. -/
theorem exists_gather_of_get? (p : Precision) (records : List (String × Duration)) {name : String}
    {e : HistogramEntry} (h : (recordAll ⟨p, .empty⟩ records).entries.get? name = some e) :
    ∃ ds : List Duration, ds.length ≤ records.length ∧ e.histogram = .gather p ds := by
  induction records using List.reverseRecOn generalizing name e with
  | nil => exact absurd h (by simp [recordAll])
  | append_singleton records record ih =>
    obtain ⟨other, d⟩ := record
    rw [recordAll_append_singleton, get?_record] at h
    split at h
    · obtain rfl := Option.some.inj h
      cases hg : (recordAll ⟨p, .empty⟩ records).entries.get? other with
      | none =>
        refine ⟨[d], by simp, ?_⟩
        simp only [entry, hg, Option.getD_none, precision_recordAll]
        rfl
      | some before =>
        obtain ⟨ds, hl, he⟩ := ih hg
        refine ⟨ds ++ [d], by simpa using hl, ?_⟩
        simp only [entry, hg, Option.getD_some, he, Histogram.gather_append_singleton]
    · obtain ⟨ds, hl, he⟩ := ih h
      exact ⟨ds, by rw [List.length_append]; omega, he⟩

end HistogramTable

namespace Histogram.Wire

theorem encode_eq_encodeWith (h : Histogram) :
    encode h = encodeWith (Zlib.compressWith Zlib.encoder.answers) h := rfl

/-- Gathered latencies that have a wire form have counts that fit it, whatever compresses
them. -/
theorem gather_sized_of_encodeWith (p : Precision) {ds : List Duration} {compress : Bytes → Bytes}
    {text : String} (h : encodeWith compress (gather p ds) = .ok text) : (gather p ds).Sized := by
  cases hp : Payload.encode (gather p ds) with
  | error cause =>
    rw [encodeWith, hp] at h
    cases h
  | ok bytes =>
    intro c hc
    exact ⟨(bounds_of_mem_gather p hc).1, Payload.count_lt_of_encode hp c hc⟩

variable (e : Zlib.Encoder)

/-- The stream of a histogram. -/
def stream (h : Histogram) : Bytes := Zlib.compressWith e.answers (Payload.bytes h)

/-- The frame of a histogram. -/
def framed (h : Histogram) : Bytes :=
  Bytes.bigEndian 4 cookie ++ Bytes.bigEndian 4 (stream e h).length ++ stream e h

theorem inflate?_stream (h : Histogram) :
    Zlib.inflate? (stream e h) = some (Payload.bytes h) :=
  Zlib.inflate?_settle (e.complete _)

theorem length_stream_lt {h : Histogram} (hw : h.Sized) : (stream e h).length < Width.limit32 := by
  have hb := Payload.length_bytes_le hw
  have hs := Zlib.length_settle_le (e.answers (Payload.bytes h)) (Payload.bytes h)
  have hf := e.bounded (Payload.bytes h)
  have hl : slotLimit = 2 ^ 23 := rfl
  have hw : Width.limit32 = 2 ^ 32 := rfl
  rw [stream, Zlib.compressWith]
  omega

/-- Encoding never fails on a histogram with a wire form. -/
theorem encodeWith_eq {h : Histogram} (hw : h.Sized) :
    encodeWith (Zlib.compressWith e.answers) h =
      .ok (.ofList (Bytes.Base64.encode (framed e h))) := by
  rw [encodeWith, Payload.encode_eq hw]
  show (frame (stream e h) >>= fun framed => _) = _
  rw [frame, if_pos (length_stream_lt e hw)]
  rfl

theorem read?_encode {h : Histogram} (hw : h.Sized) :
    Frame.read? (.ofList (Bytes.Base64.encode (framed e h))) =
      some ⟨cookie, (stream e h).length, stream e h⟩ := by
  have hc : cookie < 256 ^ 4 := by decide
  have hl : (stream e h).length < 256 ^ 4 := length_stream_lt e hw
  simp only [Frame.read?, String.toList_ofList, Bytes.Base64.decode?_encode, framed,
    List.append_assoc, Bytes.readBig?_append hc, Bytes.readBig?_append hl, Option.bind_eq_bind,
    Option.bind_some, Option.pure_def]

theorem decode?_encode {h : Histogram} (hw : h.Sized) :
    decode? (.ofList (Bytes.Base64.encode (framed e h))) = some h := by
  rw [decode?, read?_encode e hw]
  simp only [Option.bind_eq_bind, Option.bind_some, if_true, Frame.payload?, inflate?_stream,
    Payload.decode?_bytes hw]

/-- Histograms have the same text only if they are the same. -/
theorem encodeWith_inj {g h : Histogram} (hg : g.Sized) (hh : h.Sized)
    (he : encodeWith (Zlib.compressWith e.answers) g =
      encodeWith (Zlib.compressWith e.answers) h) : g = h := by
  rw [encodeWith_eq e hg, encodeWith_eq e hh] at he
  have ht := Except.ok.inj he
  have hd := decode?_encode e hg
  rw [ht, decode?_encode e hh] at hd
  exact (Option.some.inj hd).symm

theorem sized_of_mem_drain {p : Precision} {records : List (String × Duration)}
    (hr : records.length < 2 ^ 63) {a : HistogramEntry}
    (ha : a ∈ (HistogramTable.recordAll ⟨p, .empty⟩ records).drain.1) :
    a.histogram.precision = p ∧ a.histogram.Sized := by
  obtain ⟨name, hg⟩ := (Table.mem_values_iff _).1 ha
  obtain ⟨ds, hl, he⟩ := HistogramTable.exists_gather_of_get? p records hg
  rw [he]
  exact ⟨precision_gather p ds, gather_sized p (lt_of_le_of_lt hl hr)⟩

/-- An entry of a table has a text, and all of the entry's histogram is read back
from it: the frame has the cookie, and the length of a complete stream, whose
content has the precision, the bounds and the counts. Two entries of one precision
have the same text exactly if all their counts agree. -/
theorem round_trip (p : Precision) (records others : List (String × Duration))
    (hr : records.length < 2 ^ 63) (ho : others.length < 2 ^ 63) (a b : HistogramEntry)
    (ha : a ∈ (HistogramTable.recordAll ⟨p, .empty⟩ records).drain.1)
    (hb : b ∈ (HistogramTable.recordAll ⟨p, .empty⟩ others).drain.1) :
    (∃ text stream body, encodeWith (Zlib.compressWith e.answers) a.histogram = .ok text ∧
      Bytes.Base64.decode? text.toList =
        some (Bytes.bigEndian 4 0x1C849314 ++ Bytes.bigEndian 4 stream.length ++ stream) ∧
      stream.length < 2 ^ 32 ∧
      Zlib.inflate? stream =
        some (Bytes.bigEndian 4 0x1C849313 ++ Bytes.bigEndian 4 body.length ++
          Bytes.bigEndian 4 0 ++ Bytes.bigEndian 4 p.val ++ Bytes.bigEndian 8 1 ++
          Bytes.bigEndian 8 3600000000 ++ Bytes.bigEndian 8 0x3FF0000000000000 ++ body) ∧
      body.length < 2 ^ 32 ∧
      Payload.readCounts? body.length 0 body = some a.histogram.counts ∧
      decode? text = some a.histogram) ∧
    (encodeWith (Zlib.compressWith e.answers) a.histogram =
        encodeWith (Zlib.compressWith e.answers) b.histogram ↔
      ∀ s, a.histogram.countAt s = b.histogram.countAt s) := by
  obtain ⟨hpa, hsa⟩ := sized_of_mem_drain hr ha
  obtain ⟨hpb, hsb⟩ := sized_of_mem_drain ho hb
  refine ⟨⟨_, stream e a.histogram, Payload.body a.histogram, encodeWith_eq e hsa, ?_, ?_, ?_, ?_,
    Payload.readCounts?_body hsa, decode?_encode e hsa⟩, ?_, ?_⟩
  · rw [String.toList_ofList, Bytes.Base64.decode?_encode]
    rfl
  · exact length_stream_lt e hsa
  · rw [inflate?_stream, Payload.bytes, hpa]
    rfl
  · exact lt_of_le_of_lt (Payload.length_body_le hsa) (by decide)
  · intro he s
    rw [encodeWith_inj e hsa hsb he]
  · intro hc
    rw [ext_countAt (hpa.trans hpb.symm) hc]

/-- A histogram with one latency, and one whose only latency was refused. -/
theorem round_trip_of_two :
    let entries := (HistogramTable.recordAll ⟨2, .empty⟩
      [("", ⟨1500000⟩), ("a", ⟨5000000000000000⟩)]).drain.1
    let a : HistogramEntry := ⟨"", .gather 2 [⟨1500000⟩]⟩
    let b : HistogramEntry := ⟨"a", .empty 2⟩
    entries = [a, b] ∧ (∃ text, encode a.histogram = .ok text ∧ decode? text = some a.histogram) ∧
      encode a.histogram ≠ encode b.histogram := by
  intro entries a b
  have he : entries = [a, b] := by decide +kernel
  have ha : a ∈ entries := he ▸ List.mem_cons_self
  have hb : b ∈ entries := he ▸ List.mem_cons_of_mem _ List.mem_cons_self
  obtain ⟨⟨text, -, -, ht, -, -, -, -, -, hd⟩, hiff⟩ :=
    round_trip Zlib.encoder 2 _ _ (by decide) (by decide) a b ha hb
  refine ⟨he, ⟨text, (encode_eq_encodeWith _).trans ht, hd⟩, ?_⟩
  intro h
  rw [encode_eq_encodeWith, encode_eq_encodeWith] at h
  have hc := hiff.1 h (slot 2 1500)
  exact absurd hc (by decide +kernel)

end Histogram.Wire
end SpanMetrics
