import SpanMetrics.Text.Search

/-!
# Tags

A tag is a name with a value. Tags are ordered by name and then by value, both by code points; the
order is strict and total. On the wire a tag is cut to its first characters.
-/
namespace SpanMetrics

structure Tag where
  name : String
  value : String
deriving DecidableEq, Repr

namespace Tag

def before (a b : Tag) : Prop := a.name < b.name ∨ a.name = b.name ∧ a.value < b.value

instance (a b : Tag) : Decidable (a.before b) := inferInstanceAs (Decidable (_ ∨ _))

theorem before_irrefl (a : Tag) : ¬a.before a := by
  simp [before]

theorem before_trans {a b c : Tag} (hab : a.before b) (hbc : b.before c) : a.before c := by
  rcases hab with hab | ⟨hab, hab'⟩ <;> rcases hbc with hbc | ⟨hbc, hbc'⟩
  · exact .inl (String.lt_trans hab hbc)
  · exact .inl (hbc ▸ hab)
  · exact .inl (hab ▸ hbc)
  · exact .inr ⟨hab.trans hbc, String.lt_trans hab' hbc'⟩

theorem lt_or_eq_or_gt (s t : String) : s < t ∨ s = t ∨ t < s := by
  by_cases hst : s < t
  · exact .inl hst
  · by_cases hts : t < s
    · exact .inr (.inr hts)
    · exact .inr (.inl (String.le_antisymm (String.not_lt.1 hts) (String.not_lt.1 hst)))

theorem before_or_eq_or_after (a b : Tag) : a.before b ∨ a = b ∨ b.before a := by
  rcases lt_or_eq_or_gt a.name b.name with h | h | h
  · exact .inl (.inl h)
  · rcases lt_or_eq_or_gt a.value b.value with h' | h' | h'
    · exact .inl (.inr ⟨h, h'⟩)
    · exact .inr (.inl (by cases a; cases b; simp_all))
    · exact .inr (.inr (.inr ⟨h.symm, h'⟩))
  · exact .inr (.inr (.inl h))

/-- Longest name on the wire, in characters. -/
def nameLimit : Nat := 64

/-- Longest value on the wire, in characters. -/
def valueLimit : Nat := 255

/-- The tag as it goes on the wire. -/
def truncated (t : Tag) : Tag := ⟨Text.cut nameLimit t.name, Text.cut valueLimit t.value⟩

end Tag
end SpanMetrics
