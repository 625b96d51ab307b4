import SpanMetrics.Proofs.Text.Utf8
import SpanMetrics.Text.Search

/-!
# Cut texts

A cut keeps the first characters of a text. It keeps the order of texts, though
texts that differ may become equal, and a text that is short enough stays as it
is. At the byte where a character begins, a cut of the bytes is a cut between two
characters.
-/
namespace SpanMetrics

theorem lt_of_take_lt_take {a b : List Char} {count : Nat} (h : a.take count < b.take count) :
    a < b := by
  induction count generalizing a b with
  | zero => exact absurd h (List.lt_irrefl _)
  | succ count ih =>
    cases b with
    | nil => exact absurd h (List.not_lt_nil _)
    | cons d b =>
      cases a with
      | nil => exact List.nil_lt_cons _ _
      | cons c a =>
        rw [List.take_succ_cons, List.take_succ_cons, List.cons_lt_cons_iff] at h
        exact List.cons_lt_cons_iff.2 (h.imp_right fun ⟨hc, hr⟩ => ⟨hc, ih hr⟩)

namespace Text

theorem cut_le_cut {s t : String} (h : s ≤ t) (count : Nat) : cut count s ≤ cut count t := by
  rw [← String.not_lt] at h ⊢
  intro hlt
  rw [String.lt_iff_toList_lt, cut, cut, String.toList_ofList, String.toList_ofList] at hlt
  exact h (String.lt_iff_toList_lt.2 (lt_of_take_lt_take hlt))

theorem cut_eq_self {s : String} {count : Nat} (h : s.length ≤ count) : cut count s = s := by
  rw [cut, List.take_of_length_le (String.length_toList ▸ h), String.ofList_toList]

/-- Nothing beyond the cut remains. -/
theorem cut_append {s : String} {count : Nat} (h : s.length = count) (t : String) :
    cut count (s ++ t) = s := by
  have hl : s.toList.length = count := String.length_toList.trans h
  rw [cut, String.toList_append, List.take_append_of_le_length hl.ge,
    List.take_of_length_le hl.le, String.ofList_toList]

theorem length_cut (count : Nat) (s : String) : (cut count s).length = min count s.length := by
  rw [cut, ← String.length_toList, String.toList_ofList, List.length_take, String.length_toList]

/-- A text goes on behind its cut. -/
theorem cut_append_drop (count : Nat) (s : String) :
    cut count s ++ .ofList (s.toList.drop count) = s := by
  rw [cut, ← String.ofList_append, List.take_append_drop, String.ofList_toList]

/-! ## Cuts of bytes -/

theorem getElem?_starts (place : Nat) (cs : List Char) (count : Nat) :
    (starts place cs)[count]? =
      if count < cs.length
      then some (place + ((cs.take count).flatMap String.utf8EncodeChar).length) else none := by
  induction cs generalizing place count with
  | nil => simp [starts]
  | cons c cs ih =>
    cases count with
    | zero => simp [starts]
    | succ count =>
      rw [starts, List.getElem?_cons_succ, ih]
      simp [String.length_utf8EncodeChar, Nat.add_assoc]

/-- A cut at a byte is a cut between characters. -/
theorem cutBytes_eq (count : Nat) (s : String) : cutBytes count s = utf8 (cut count s) := by
  have hsplit : utf8 s = utf8 (cut count s) ++
      (s.toList.drop count).flatMap String.utf8EncodeChar := by
    rw [utf8_eq, cut, utf8_ofList, ← List.flatMap_append, List.take_append_drop]
  rw [cutBytes, getElem?_starts]
  split
  · next place hp =>
    split at hp
    · obtain rfl := Option.some.inj hp
      rw [hsplit, cut, utf8_ofList, Nat.zero_add]
      exact List.take_left
    · cases hp
  · next hp =>
    have hle : s.toList.length ≤ count := by
      by_contra hlt
      rw [if_pos (by omega)] at hp
      cases hp
    rw [cut, List.take_of_length_le hle, String.ofList_toList]

end Text
end SpanMetrics
