import Mathlib
import SpanMetrics.Bson.Writer

/-!
# Keys of documents

The keys of a document in order, the value of a key in a document that was put
together from parts, and the first key that cannot be written. The positions in an
array are distinct keys and can always be written.
-/
namespace SpanMetrics.Bson

@[simp] theorem keys_nil : keys [] = [] := rfl

@[simp] theorem keys_cons (field : String × Value) (d : Document) :
    keys (field :: d) = field.1 :: keys d := rfl

@[simp] theorem keys_append (d e : Document) : keys (d ++ e) = keys d ++ keys e :=
  List.map_append

@[simp] theorem field?_nil (key : String) : field? [] key = none := rfl

theorem field?_cons (key other : String) (value : Value) (d : Document) :
    field? ((key, value) :: d) other = if other = key then some value else field? d other := by
  unfold field?
  rw [List.lookup_cons]
  by_cases h : other = key
  · simp [h]
  · simp [h, beq_false_of_ne h]

theorem field?_append (d e : Document) (key : String) :
    field? (d ++ e) key = (field? d key).or (field? e key) := List.lookup_append

theorem isSome_field? (d : Document) (key : String) : (field? d key).isSome ↔ key ∈ keys d := by
  induction d with
  | nil => simp
  | cons field d ih =>
    obtain ⟨k, v⟩ := field
    rw [field?_cons, keys_cons, List.mem_cons, ← ih]
    by_cases h : key = k <;> simp [h]

theorem field?_eq_none {d : Document} {key : String} (h : key ∉ keys d) :
    field? d key = none := by
  rw [← isSome_field?] at h
  exact Option.not_isSome_iff_eq_none.1 h

/-- Documents with the same keys in the same order and the same value for each of them. -/
theorem ext_field? {d e : Document} (hn : (keys d).Nodup) (hk : keys d = keys e)
    (hf : ∀ key, field? d key = field? e key) : d = e := by
  induction d generalizing e with
  | nil => exact (List.map_eq_nil_iff.1 hk.symm).symm
  | cons field d ih =>
    cases e with
    | nil => cases hk
    | cons field' e =>
      obtain ⟨key, value⟩ := field
      obtain ⟨key', value'⟩ := field'
      obtain ⟨rfl, hrest⟩ : key = key' ∧ keys d = keys e := List.cons.inj hk
      obtain ⟨hkey, hnd⟩ := List.nodup_cons.1 hn
      have hv := hf key
      rw [field?_cons, field?_cons, if_pos rfl, if_pos rfl] at hv
      obtain rfl := Option.some.inj hv
      refine congrArg _ (ih hnd hrest fun other => ?_)
      have ho := hf other
      rw [field?_cons, field?_cons] at ho
      by_cases he : other = key
      · subst he
        rw [field?_eq_none hkey, field?_eq_none (hrest ▸ hkey)]
      · rwa [if_neg he, if_neg he] at ho

/-! ## Documents that repeat no key -/

/-- No document in a value has a key twice. -/
inductive Value.Unrepeated : Value → Prop
  | double (x : Double) : Unrepeated (.double x)
  | string (s : String) : Unrepeated (.string s)
  | bool (b : Bool) : Unrepeated (.bool b)
  | int32 (n : Int32) : Unrepeated (.int32 n)
  | int64 (n : Int64) : Unrepeated (.int64 n)
  | document {fields : Document} (distinct : (keys fields).Nodup)
      (values : ∀ field ∈ fields, Unrepeated field.2) : Unrepeated (.document fields)
  | array {fields : Document} (distinct : (keys fields).Nodup)
      (values : ∀ field ∈ fields, Unrepeated field.2) : Unrepeated (.array fields)

theorem keys_keyed (start : Nat) (items : List Value) :
    keys (keyed start items) = (List.range' start items.length).map toString := by
  induction items generalizing start with
  | nil => rfl
  | cons item items ih =>
    rw [keyed, keys_cons, ih, List.length_cons, List.range'_succ, List.map_cons]

theorem values_keyed (start : Nat) (items : List Value) :
    (keyed start items).map Prod.snd = items := by
  induction items generalizing start with
  | nil => rfl
  | cons item items ih => rw [keyed, List.map_cons, ih]

theorem nodup_keys_keyed (start : Nat) (items : List Value) :
    (keys (keyed start items)).Nodup := by
  rw [keys_keyed]
  exact List.Nodup.map (fun _ _ h => Nat.repr_inj.1 h) List.nodup_range'

/-- An array as it is read: the items in order, each under its position. -/
def arrayOf (items : List Value) : Value :=
  .array (items.mapIdx fun place item => (toString place, item))

theorem keyed_eq_mapIdx (start : Nat) (items : List Value) :
    keyed start items = items.mapIdx fun place item => (toString (start + place), item) := by
  induction items generalizing start with
  | nil => rfl
  | cons item items ih =>
    rw [keyed, ih, List.mapIdx_cons]
    simp only [Nat.add_zero, Nat.add_assoc, Nat.add_comm 1]

theorem Value.ofItems_eq (items : List Value) : Value.ofItems items = arrayOf items := by
  rw [Value.ofItems, keyed_eq_mapIdx]
  simp only [Nat.zero_add]
  rfl

theorem Value.Unrepeated.ofItems {items : List Value} (h : ∀ item ∈ items, item.Unrepeated) :
    (Value.ofItems items).Unrepeated := by
  refine .array (nodup_keys_keyed 0 items) fun field hf => h _ ?_
  rw [← values_keyed 0 items]
  exact List.mem_map_of_mem hf

theorem Value.Unrepeated.ofTexts (texts : List String) : (Value.ofTexts texts).Unrepeated := by
  apply Value.Unrepeated.ofItems
  intro item hi
  obtain ⟨text, -, rfl⟩ := List.mem_map.1 hi
  exact .string text

/-! ## Keys that cannot be written -/

@[simp] theorem badKeyOfFields?_nil : badKeyOfFields? [] = none := rfl

theorem badKeyOfFields?_append (d e : Document) :
    badKeyOfFields? (d ++ e) = (badKeyOfFields? d).or (badKeyOfFields? e) := by
  induction d with
  | nil => rfl
  | cons field d ih => rw [List.cons_append, badKeyOfFields?, ih, badKeyOfFields?, Option.or_assoc]

theorem badKeyOfFields?_cons {key : String} (h : keyOk key) (value : Value) (d : Document) :
    badKeyOfFields? ((key, value) :: d) = value.badKey?.or (badKeyOfFields? d) := by
  rw [badKeyOfFields?, badKeyOfField?, if_pos h]

theorem keyOk_toString (n : Nat) : keyOk (toString n) := by
  have h : '\x00' ∉ Nat.toDigits 10 n := fun hm =>
    absurd (Nat.isDigit_of_mem_toDigits (by decide) (by decide) hm) (by decide)
  simpa [keyOk] using h

theorem badKeyOfFields?_keyed (start : Nat) (items : List Value) :
    badKeyOfFields? (keyed start items) = items.findSome? Value.badKey? := by
  induction items generalizing start with
  | nil => rfl
  | cons item items ih =>
    rw [keyed, badKeyOfFields?_cons (keyOk_toString start), ih, List.findSome?_cons]
    cases item.badKey? <;> rfl

theorem badKey?_ofItems (items : List Value) :
    (Value.ofItems items).badKey? = items.findSome? Value.badKey? :=
  badKeyOfFields?_keyed 0 items

theorem badKey?_ofTexts (texts : List String) : (Value.ofTexts texts).badKey? = none := by
  rw [Value.ofTexts, badKey?_ofItems, List.findSome?_eq_none_iff]
  intro item hi
  obtain ⟨text, -, rfl⟩ := List.mem_map.1 hi
  rfl

/-- In a document of plain values only its own keys matter. -/
theorem badKeyOfFields?_of_plain {d : Document} (h : ∀ field ∈ d, field.2.badKey? = none) :
    badKeyOfFields? d = (keys d).find? (!keyOk ·) := by
  induction d with
  | nil => rfl
  | cons field d ih =>
    obtain ⟨key, value⟩ := field
    obtain ⟨hv, hd⟩ := List.forall_mem_cons.1 h
    rw [badKeyOfFields?, badKeyOfField?, ih hd, hv, keys_cons, List.find?_cons]
    cases keyOk key <;> rfl

end SpanMetrics.Bson
