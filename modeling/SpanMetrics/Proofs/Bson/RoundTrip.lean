import Mathlib
import SpanMetrics.Bson.Reader
import SpanMetrics.Bson.Writer
import SpanMetrics.Bytes.Lemmas
import SpanMetrics.Proofs.Text.Utf8

/-!
# Reading back documents

A document that was written is read back whole, through any nesting. A text ends
at its zero byte because no other character has one in its UTF-8 form, and every
length fits its four bytes because the document around it is longer. A document
that is itself too long for four bytes is not read back.
-/
namespace SpanMetrics.Bson

/-- A zero byte in UTF-8 is the NUL character. -/
theorem zero_mem_utf8EncodeChar (c : Char) : 0 ∈ String.utf8EncodeChar c ↔ c = '\x00' := by
  have hn : c = '\x00' ↔ c.val.toNat = 0 := by
    rw [Char.ext_iff, ← UInt32.toNat_inj]
    rfl
  rw [hn]
  simp only [String.utf8EncodeChar]
  -- all bytes of a longer form have their first bit set
  split <;> [skip; split <;> [skip; split]] <;>
    simp only [List.mem_cons, List.not_mem_nil, or_false, ← UInt8.toNat_inj, UInt8.toNat_ofNat',
      UInt8.toNat_zero] <;>
    omega

theorem zero_mem_utf8 (s : String) : 0 ∈ Text.utf8 s ↔ '\x00' ∈ s.toList := by
  simp [Text.utf8_eq, zero_mem_utf8EncodeChar]

theorem zero_not_mem_utf8 {key : String} (h : keyOk key) : 0 ∉ Text.utf8 key := by
  rw [zero_mem_utf8]
  simpa [keyOk] using h

/-! ## Parts of a field -/

theorem readCString?_append {key : String} (h : keyOk key) (rest : Bytes) :
    readCString? (cstring key ++ rest) = some (key, rest) := by
  have hz : ∀ b ∈ Text.utf8 key, (b != 0) = true := by
    intro b hb
    exact bne_iff_ne.2 fun he => zero_not_mem_utf8 h (he ▸ hb)
  have hd : (cstring key ++ rest).dropWhile (· != 0) = 0 :: rest := by
    rw [cstring, List.append_assoc, List.dropWhile_append_of_pos hz]
    rfl
  have ht : (cstring key ++ rest).takeWhile (· != 0) = Text.utf8 key := by
    rw [cstring, List.append_assoc, List.takeWhile_append_of_pos hz]
    simp
  simp [readCString?, hd, ht, Text.ofUtf8?_utf8]

theorem readString?_append {s : String} (h : (Text.utf8 s).length + 1 < 2 ^ 32) (rest : Bytes) :
    readString? ((Value.string s).bytes ++ rest) = some (s, rest) := by
  have hl : (Text.utf8 s).length + 1 < 256 ^ 4 := h
  have hs := Bytes.split?_append (Text.utf8 s) ([0] ++ rest)
  simp only [readString?, Value.bytes, cstring, List.append_assoc,
    Bytes.readLittle?_append hl, Option.bind_eq_bind, Option.bind_some, Nat.add_sub_cancel, hs]
  simp [Text.ofUtf8?_utf8]

theorem length_enclose (fields : Bytes) : (enclose fields).length = fields.length + 5 := by
  simp only [enclose, List.length_append, Bytes.length_littleEndian, List.length_singleton]
  omega

theorem enclosed?_append {fields : Bytes} (h : (enclose fields).length < 2 ^ 32) (rest : Bytes) :
    enclosed? (enclose fields ++ rest) = some (fields, rest) := by
  have hl : fields.length + 5 < 256 ^ 4 := length_enclose fields ▸ h
  have hr : Bytes.readLittle? 4 (enclose fields ++ rest) =
      some (fields.length + 5, fields ++ [0] ++ rest) := by
    rw [enclose, List.append_assoc, List.append_assoc, Bytes.readLittle?_append hl,
      List.append_assoc]
  have hs := Bytes.split?_append (enclose fields) rest
  rw [length_enclose] at hs
  have hd : ((enclose fields).drop 4).dropLast = fields := by
    rw [enclose, List.append_assoc,
      List.drop_left' (Bytes.length_littleEndian 4 (fields.length + 5)), List.dropLast_concat]
  have hz : (enclose fields).getLast? = some 0 := List.getLast?_concat
  simp [enclosed?, hr, hs, hd, hz]

/-- What an enclosed document announces is its length, so it is never too long. -/
theorem length_lt_of_enclosed? {bytes fields : Bytes} (h : enclosed? bytes = some (fields, [])) :
    bytes.length < 2 ^ 32 := by
  simp only [enclosed?, Option.bind_eq_bind, Option.bind_eq_some_iff] at h
  obtain ⟨⟨length, rest⟩, hr, h⟩ := h
  split at h
  · cases h
  · simp only [Option.bind_eq_some_iff] at h
    obtain ⟨⟨whole, tail⟩, hs, h⟩ := h
    split at h
    · obtain ⟨-, rfl⟩ := Prod.mk.inj (Option.some.inj h)
      obtain ⟨hl, rfl⟩ := Bytes.of_split? hs
      rw [List.append_nil, hl]
      exact Bytes.readLittle?_lt hr
    · cases h

/-- A field is read, whatever follows it, if the document in it is. -/
theorem readFields?_field {steps : Nat} {key : String} {value : Value} (hk : keyOk key)
    (hl : value.bytes.length < 2 ^ 32)
    (hi : readFields? steps (fieldsBytes value.inner) = some value.inner) (rest : Bytes) :
    readFields? (steps + 1) (fieldBytes (key, value) ++ rest) =
      (readFields? steps rest).map ((key, value) :: ·) := by
  have hc : ∀ bytes, readCString? (cstring key ++ bytes) = some (key, bytes) :=
    readCString?_append hk
  rw [fieldBytes, List.cons_append, List.cons_append, List.append_assoc, readFields?, hc]
  cases value with
  | double x =>
    have hx : x.bits.toNat < 256 ^ 8 := x.bits.toNat_lt
    simp only [Value.mark, Value.bytes, Option.bind_eq_bind, Option.bind_some,
      Bytes.readLittle?_append hx, UInt64.ofNat_toNat]
    cases readFields? steps rest <;> rfl
  | string s =>
    have hs : (Text.utf8 s).length + 1 < 2 ^ 32 := by
      simp only [Value.bytes, cstring, List.length_append, Bytes.length_littleEndian,
        List.length_singleton] at hl
      omega
    simp only [Value.mark, Option.bind_eq_bind, Option.bind_some, readString?_append hs]
    cases readFields? steps rest <;> rfl
  | document fields =>
    have hf : readFields? steps (fieldsBytes fields) = some fields := hi
    rw [Value.bytes] at hl
    simp only [Value.mark, Value.bytes, Option.bind_eq_bind, Option.bind_some,
      enclosed?_append hl, hf]
    cases readFields? steps rest <;> rfl
  | array fields =>
    have hf : readFields? steps (fieldsBytes fields) = some fields := hi
    rw [Value.bytes] at hl
    simp only [Value.mark, Value.bytes, Option.bind_eq_bind, Option.bind_some,
      enclosed?_append hl, hf]
    cases readFields? steps rest <;> rfl
  | bool b =>
    have hb : (Value.bool b).bytes ++ rest = (if b then 1 else 0) :: rest := rfl
    cases b <;>
      simp only [Value.mark, hb, Option.bind_eq_bind, Option.bind_some, if_true, if_false,
        Bool.false_eq_true] <;>
      cases readFields? steps rest <;> rfl
  | int32 n =>
    have hn : n.toUInt32.toNat < 256 ^ 4 := n.toUInt32.toNat_lt
    have hr : Int32.ofNat n.toUInt32.toNat = n := Int32.ofNat_bitVecToNat n.toBitVec
    simp only [Value.mark, Value.bytes, Option.bind_eq_bind, Option.bind_some,
      Bytes.readLittle?_append hn, hr]
    cases readFields? steps rest <;> rfl
  | int64 n =>
    have hn : n.toUInt64.toNat < 256 ^ 8 := n.toUInt64.toNat_lt
    have hr : Int64.ofNat n.toUInt64.toNat = n := Int64.ofNat_bitVecToNat n.toBitVec
    simp only [Value.mark, Value.bytes, Option.bind_eq_bind, Option.bind_some,
      Bytes.readLittle?_append hn, hr]
    cases readFields? steps rest <;> rfl

theorem length_fieldBytes (key : String) (value : Value) :
    (fieldBytes (key, value)).length = (cstring key).length + value.bytes.length + 1 := by
  rw [fieldBytes, List.cons_append, List.length_cons, List.length_append]

theorem length_inner_le (value : Value) :
    (fieldsBytes value.inner).length ≤ value.bytes.length := by
  cases value with
  | document fields => simp [Value.inner, Value.bytes, length_enclose]
  | array fields => simp [Value.inner, Value.bytes, length_enclose]
  | _ => simp [Value.inner, fieldsBytes]

theorem badKey?_inner (value : Value) : badKeyOfFields? value.inner = value.badKey? := by
  cases value <;> rfl

theorem readFields?_fieldsBytes {steps : Nat} {fields : Document}
    (hk : badKeyOfFields? fields = none) (hl : (fieldsBytes fields).length < 2 ^ 32)
    (hs : (fieldsBytes fields).length ≤ steps) :
    readFields? steps (fieldsBytes fields) = some fields := by
  induction steps generalizing fields with
  | zero =>
    cases fields with
    | nil => rfl
    | cons field rest =>
      obtain ⟨key, value⟩ := field
      rw [fieldsBytes, List.length_append, length_fieldBytes] at hs
      omega
  | succ steps ih =>
    cases fields with
    | nil => rfl
    | cons field rest =>
      obtain ⟨key, value⟩ := field
      rw [fieldsBytes, List.length_append, length_fieldBytes] at hl hs
      have hinner := length_inner_le value
      obtain ⟨hfield, hrest⟩ : badKeyOfField? (key, value) = none ∧ badKeyOfFields? rest = none :=
        Option.or_eq_none_iff.1 hk
      obtain ⟨hkey, hvalue⟩ : keyOk key ∧ value.badKey? = none := by
        rw [badKeyOfField?] at hfield
        split at hfield
        · next h => exact ⟨h, hfield⟩
        · simp at hfield
      rw [← badKey?_inner] at hvalue
      rw [fieldsBytes, readFields?_field hkey (by omega) (ih hvalue (by omega) (by omega)),
        ih hrest (by omega) (by omega)]
      rfl

/-- A document that was written is read back exactly if its length fits four bytes. -/
theorem read?_of_write {d : Document} {bytes : Bytes} (h : write d = .ok bytes) :
    read? bytes = if bytes.length < 2 ^ 32 then some d else none := by
  rw [write] at h
  split at h
  · cases h
  · next hk =>
    obtain rfl := Except.ok.inj h
    rw [read?]
    split
    · next hl =>
      have hf := length_enclose (fieldsBytes d)
      have he := enclosed?_append hl []
      rw [List.append_nil] at he
      rw [he]
      exact readFields?_fieldsBytes hk (by omega) le_rfl
    · next hl =>
      cases he : enclosed? (enclose (fieldsBytes d)) with
      | none => rfl
      | some result =>
        obtain ⟨fields, rest⟩ := result
        cases rest with
        | nil => exact absurd (length_lt_of_enclosed? he) hl
        | cons b rest => rfl

end SpanMetrics.Bson
