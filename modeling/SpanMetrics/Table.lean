/-!
# Keyed tables

Entries under text keys, each key once, in the order in which the keys were first used. All that
can be seen of a table is `get?` and the order of its keys; `get?_alter` and `keys_alter` say what
an update does to them.
-/
namespace SpanMetrics

structure Table (α : Type) where
  entries : List (String × α)
  distinct : (entries.map Prod.fst).Nodup

namespace Table

variable {α : Type}

def empty : Table α := ⟨[], .nil⟩

instance : Inhabited (Table α) := ⟨empty⟩

def keys (t : Table α) : List String := t.entries.map Prod.fst

def values (t : Table α) : List α := t.entries.map Prod.snd

def size (t : Table α) : Nat := t.entries.length

def isEmpty (t : Table α) : Bool := t.entries.isEmpty

def get? (t : Table α) (key : String) : Option α := t.entries.lookup key

/-- Replaces the entry of a key, or appends one if there is none. -/
def alterEntries (key : String) (f : Option α → α) : List (String × α) → List (String × α)
  | [] => [(key, f none)]
  | (k, a) :: rest =>
    if k = key then (k, f (some a)) :: rest else (k, a) :: alterEntries key f rest

theorem map_fst_alterEntries (key : String) (f : Option α → α) (entries : List (String × α)) :
    (alterEntries key f entries).map Prod.fst =
      if key ∈ entries.map Prod.fst then entries.map Prod.fst
      else entries.map Prod.fst ++ [key] := by
  induction entries with
  | nil => simp [alterEntries]
  | cons e rest ih =>
    obtain ⟨k, a⟩ := e
    by_cases h : k = key
    · simp [alterEntries, h]
    · have h' : key ≠ k := fun e => h e.symm
      simp only [alterEntries, h, if_false, List.map_cons, ih, List.mem_cons, h', false_or]
      split <;> simp

theorem lookup_alterEntries (key other : String) (f : Option α → α)
    (entries : List (String × α)) :
    (alterEntries key f entries).lookup other =
      if other = key then some (f (entries.lookup key)) else entries.lookup other := by
  induction entries with
  | nil =>
    by_cases h : other = key
    · simp [alterEntries, h]
    · simp [alterEntries, h, List.lookup_cons, beq_false_of_ne h]
  | cons e rest ih =>
    obtain ⟨k, a⟩ := e
    by_cases h : k = key
    · subst h
      by_cases ho : other = k
      · simp [alterEntries, ho]
      · simp [alterEntries, List.lookup_cons, ho, beq_false_of_ne ho]
    · have h' : key ≠ k := fun e => h e.symm
      simp only [alterEntries, h, if_false, List.lookup_cons, ih]
      by_cases ho : other = k
      · subst ho; simp [h]
      · simp [beq_false_of_ne ho, beq_false_of_ne h']

/-- Sets the entry of a key to `f` of what it was. -/
def alter (t : Table α) (key : String) (f : Option α → α) : Table α where
  entries := alterEntries key f t.entries
  distinct := by
    rw [map_fst_alterEntries]
    split
    · exact t.distinct
    · next h =>
      refine List.nodup_append.2 ⟨t.distinct, by simp, ?_⟩
      intro x hx y hy hxy
      exact h (List.mem_singleton.1 hy ▸ hxy ▸ hx)

theorem get?_alter (t : Table α) (key other : String) (f : Option α → α) :
    (t.alter key f).get? other = if other = key then some (f (t.get? key)) else t.get? other :=
  lookup_alterEntries key other f t.entries

theorem keys_alter (t : Table α) (key : String) (f : Option α → α) :
    (t.alter key f).keys = if key ∈ t.keys then t.keys else t.keys ++ [key] :=
  map_fst_alterEntries key f t.entries

@[simp] theorem get?_empty (key : String) : (empty : Table α).get? key = none := rfl

@[simp] theorem keys_empty : (empty : Table α).keys = [] := rfl

theorem length_keys (t : Table α) : t.keys.length = t.size := by simp [keys, size]

end Table
end SpanMetrics
