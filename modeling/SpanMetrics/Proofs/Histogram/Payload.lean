import SpanMetrics.Bytes.Lemmas
import SpanMetrics.Histogram.Payload
import SpanMetrics.Proofs.Histogram.Buckets
import SpanMetrics.Proofs.Histogram.Gather

/-!
# Reading back the binary form

The counts of a histogram are read back from its binary form, with the empty slots
between them. This needs counts that fit a signed number of 64 bits and slots that
fit as well; a histogram of fewer than `2 ^ 63` latencies has both, since values
beyond the last bucket are refused. The number of slots also bounds the length of
the form, far below what its length field holds.
-/
namespace SpanMetrics

namespace Bytes.Varint

theorem length_encodeGroups (short n : Nat) :
    1 ≤ (encodeGroups short n).length ∧ (encodeGroups short n).length ≤ short + 1 := by
  induction short generalizing n with
  | zero => exact ⟨le_rfl, le_rfl⟩
  | succ short ih =>
    rw [encodeGroups]
    split
    · exact ⟨le_rfl, Nat.le_add_left _ _⟩
    · obtain ⟨hl, hu⟩ := ih (n / 128)
      rw [List.length_cons]
      omega

theorem length_encode (n : Int) : 1 ≤ (encode n).length ∧ (encode n).length ≤ 9 :=
  length_encodeGroups 8 (zigzag n)

end Bytes.Varint

namespace Histogram

/-- More slots than any precision has. -/
def slotLimit : Nat := 2 ^ 23

/-- A value with a bucket has one of the first slots. -/
theorem slot_lt (p : Precision) {value : Nat} (h : value < ceiling) : slot p value < slotLimit := by
  have hh := halfBits_le p
  have hv : value < 2 ^ (halfBits p + (31 - halfBits p) + 1) := by
    have he : halfBits p + (31 - halfBits p) + 1 = 32 := by omega
    rw [he]
    exact h
  have hs := (slot_lt_iff p value (31 - halfBits p)).2 hv
  have hpow : 2 ^ halfBits p ≤ 2 ^ 17 := Nat.pow_le_pow_right (by decide) hh
  rw [Nat.shiftLeft_eq] at hs
  calc slot p value < (31 - halfBits p + 2) * 2 ^ halfBits p := hs
    _ ≤ 33 * 2 ^ 17 := Nat.mul_le_mul (by omega) hpow
    _ ≤ slotLimit := by decide

/-- The slots in use are slots of the layout, and their counts have a wire form. -/
def Sized (h : Histogram) : Prop :=
  ∀ c ∈ h.counts, c.slot < slotLimit ∧ c.count < Width.half64

/-- A count of gathered latencies belongs to one of the first slots, and counts some of
the latencies. -/
theorem bounds_of_mem_gather (p : Precision) {ds : List Duration} {c : SlotCount}
    (hc : c ∈ (gather p ds).counts) : c.slot < slotLimit ∧ c.count ≤ ds.length := by
  obtain ⟨hpos, he⟩ := (mem_iff_countOf (gather p ds).increasing (gather p ds).positive c).1 hc
  have hn : (ds.filter (Falls p c.slot)).length = c.count := by
    rw [← countAt_gather]
    exact he
  obtain ⟨d, hd⟩ := List.exists_mem_of_length_pos (hn.symm ▸ hpos)
  obtain ⟨hlt, hs⟩ := of_decide_eq_true (List.mem_filter.1 hd).2
  refine ⟨?_, hn ▸ List.length_filter_le _ _⟩
  rw [← hs]
  exact slot_lt p hlt

theorem gather_sized (p : Precision) {ds : List Duration} (h : ds.length < Width.half64) :
    (gather p ds).Sized := by
  intro c hc
  obtain ⟨hslot, hcount⟩ := bounds_of_mem_gather p hc
  exact ⟨hslot, lt_of_le_of_lt hcount h⟩

namespace Payload

/-- One number of a body. -/
theorem readCounts?_encode {n : Int} (hl : -(2 ^ 63) ≤ n) (hu : n < 2 ^ 63)
    (steps next : Nat) (rest : Bytes) :
    readCounts? (steps + 1) next (Bytes.Varint.encode n ++ rest) =
      if 0 < n then (readCounts? steps (next + 1) rest).map (⟨next, n.toNat⟩ :: ·)
      else if n = 0 then readCounts? steps (next + 1) rest
      else readCounts? steps (next + n.natAbs) rest := by
  have hd := Bytes.Varint.decode?_encode hl hu rest
  have hlen := (Bytes.Varint.length_encode n).1
  cases hb : Bytes.Varint.encode n with
  | nil => simp [hb] at hlen
  | cons b bs =>
    rw [hb] at hd
    rw [List.cons_append] at hd ⊢
    rw [readCounts?, hd]
    · simp only [Option.bind_eq_bind, Option.bind_some]
      split
      · cases readCounts? steps (next + 1) rest <;> rfl
      · rfl
    · exact List.cons_ne_nil _ _

theorem gap_add_two (k : Nat) : gap (k + 2) = Bytes.Varint.encode (-((k + 2 : Nat) : Int)) := rfl

/-- A run of empty slots is skipped. -/
theorem readCounts?_gap {length : Nat} (hl : length < 2 ^ 63) {steps : Nat} (next : Nat)
    {rest : Bytes} (hs : (gap length ++ rest).length ≤ steps) :
    ∃ left, rest.length ≤ left ∧
      readCounts? steps next (gap length ++ rest) = readCounts? left (next + length) rest := by
  rw [List.length_append] at hs
  match length with
  | 0 => exact ⟨steps, by simpa [gap] using hs, rfl⟩
  | 1 =>
    have hlen := (Bytes.Varint.length_encode 0).1
    rw [gap] at hs ⊢
    obtain ⟨left, rfl⟩ := Nat.exists_eq_add_of_le' (show 1 ≤ steps by omega)
    exact ⟨left, by omega, readCounts?_encode (by decide) (by decide) left next rest⟩
  | k + 2 =>
    have hlen := (Bytes.Varint.length_encode (-((k + 2 : Nat) : Int))).1
    rw [gap_add_two] at hs ⊢
    obtain ⟨left, rfl⟩ := Nat.exists_eq_add_of_le' (show 1 ≤ steps by omega)
    refine ⟨left, by omega, ?_⟩
    rw [readCounts?_encode (by omega) (by omega), if_neg (by omega), if_neg (by omega),
      Int.natAbs_neg, Int.natAbs_natCast]

/-- The counts of slots in order are read back. -/
theorem readCounts?_countsFrom {counts : List SlotCount} {next steps : Nat}
    (hi : counts.Pairwise (·.slot < ·.slot)) (hp : ∀ c ∈ counts, 0 < c.count)
    (hn : ∀ c ∈ counts, next ≤ c.slot)
    (hw : ∀ c ∈ counts, c.slot < slotLimit ∧ c.count < Width.half64)
    (hs : (countsFrom next counts).length ≤ steps) :
    readCounts? steps next (countsFrom next counts) = some counts := by
  induction counts generalizing next steps with
  | nil =>
    cases steps <;> rfl
  | cons c rest ih =>
    obtain ⟨hc, hi⟩ := List.pairwise_cons.1 hi
    obtain ⟨hpos, hp⟩ := List.forall_mem_cons.1 hp
    obtain ⟨hle, hn⟩ := List.forall_mem_cons.1 hn
    obtain ⟨⟨hslot, hcount⟩, hw⟩ := List.forall_mem_cons.1 hw
    have hlimit : slotLimit = 2 ^ 23 := rfl
    have hhalf : Width.half64 = 2 ^ 63 := rfl
    have hlen := (Bytes.Varint.length_encode (c.count : Int)).1
    rw [countsFrom, List.append_assoc] at hs ⊢
    obtain ⟨left, hleft, he⟩ := readCounts?_gap (by omega) next hs
    rw [List.length_append] at hleft
    obtain ⟨left, rfl⟩ := Nat.exists_eq_add_of_le' (show 1 ≤ left by omega)
    have hnext : next + (c.slot - next) = c.slot := Nat.add_sub_cancel' hle
    have hrest : ∀ d ∈ rest, c.slot + 1 ≤ d.slot := fun d hd => hc d hd
    rw [he, readCounts?_encode (by omega) (by omega), if_pos (by omega), hnext,
      ih hi hp hrest hw (by omega)]
    rfl

theorem readCounts?_body {h : Histogram} (hw : h.Sized) :
    readCounts? (body h).length 0 (body h) = some h.counts := by
  unfold body
  split
  · next he =>
    rw [List.isEmpty_iff.1 he]
    decide
  · exact readCounts?_countsFrom h.increasing h.positive (fun _ _ => Nat.zero_le _) hw le_rfl

theorem length_gap_le (length : Nat) : (gap length).length ≤ 9 := by
  match length with
  | 0 => exact Nat.zero_le _
  | 1 => exact (Bytes.Varint.length_encode 0).2
  | k + 2 => exact (Bytes.Varint.length_encode _).2

theorem length_countsFrom_le {counts : List SlotCount} {next limit : Nat}
    (hi : counts.Pairwise (·.slot < ·.slot)) (hn : ∀ c ∈ counts, next ≤ c.slot ∧ c.slot < limit) :
    (countsFrom next counts).length ≤ 18 * (limit - next) := by
  induction counts generalizing next with
  | nil => exact Nat.zero_le _
  | cons c rest ih =>
    obtain ⟨hc, hi⟩ := List.pairwise_cons.1 hi
    obtain ⟨⟨hle, hlt⟩, hn⟩ := List.forall_mem_cons.1 hn
    have hbounds : ∀ d ∈ rest, c.slot + 1 ≤ d.slot ∧ d.slot < limit :=
      fun d hd => ⟨hc d hd, (hn d hd).2⟩
    have hrest := ih hi hbounds
    have hg := length_gap_le (c.slot - next)
    have he := (Bytes.Varint.length_encode (c.count : Int)).2
    rw [countsFrom, List.length_append, List.length_append]
    omega

theorem length_body_le {h : Histogram} (hw : h.Sized) : (body h).length ≤ 18 * slotLimit := by
  unfold body
  split
  · exact le_trans (length_gap_le 1) (by decide)
  · exact length_countsFrom_le h.increasing fun c hc => ⟨Nat.zero_le _, (hw c hc).1⟩

/-- The binary form of a histogram whose counts have one. -/
def bytes (h : Histogram) : Bytes := header h.precision (body h).length ++ body h

theorem length_bytes_le {h : Histogram} (hw : h.Sized) :
    (bytes h).length ≤ 40 + 18 * slotLimit := by
  have hb := length_body_le hw
  simp only [bytes, header, List.length_append, Bytes.length_bigEndian]
  omega

theorem encode_eq {h : Histogram} (hw : h.Sized) : encode h = .ok (bytes h) := by
  have hn : h.counts.any (Width.half64 ≤ ·.count) = false := by
    rw [List.any_eq_false]
    intro c hc
    simpa using (hw c hc).2
  rw [encode, hn]
  rfl

/-- A count that is too large has no binary form. -/
theorem count_lt_of_encode {h : Histogram} {bytes : Bytes} (he : encode h = .ok bytes) :
    ∀ c ∈ h.counts, c.count < Width.half64 := by
  rw [encode] at he
  split at he
  · cases he
  · next hn => simpa using hn

theorem ofCounts?_counts (h : Histogram) : ofCounts? h.precision h.counts = some h := by
  rw [ofCounts?, dif_pos ⟨h.increasing, h.positive⟩]

/-- A histogram is read back from its binary form. -/
theorem decode?_bytes {h : Histogram} (hw : h.Sized) : decode? (bytes h) = some h := by
  have hlen : (body h).length < 256 ^ 4 := lt_of_le_of_lt (length_body_le hw) (by decide)
  have hp : h.precision.val < 256 ^ 4 := lt_trans h.precision.isLt (by decide)
  have hof : Precision.ofNat? h.precision.val = some h.precision := by
    rw [Precision.ofNat?, dif_pos h.precision.isLt]
  have hcookie : cookie < 256 ^ 4 := by decide
  have hzero : 0 < 256 ^ 4 := by decide
  have hlow : lowest < 256 ^ 8 := by decide
  have hhigh : highest < 256 ^ 8 := by decide
  have hratio : unitRatio < 256 ^ 8 := by decide
  simp only [decode?, bytes, header, List.append_assoc, Bytes.readBig?_append hcookie,
    Bytes.readBig?_append hlen, Bytes.readBig?_append hzero, Bytes.readBig?_append hp,
    Bytes.readBig?_append hlow, Bytes.readBig?_append hhigh, Bytes.readBig?_append hratio,
    Option.bind_eq_bind, Option.bind_some, hof, readCounts?_body hw, ofCounts?_counts]
  rfl

end Payload
end Histogram
end SpanMetrics
