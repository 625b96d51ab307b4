import Mathlib
import SpanMetrics.Numeral
import SpanMetrics.Text.Lines
import SpanMetrics.Text.Search

/-!
# Reading a value

Three steps lead from bytes to a value: the text whose UTF-8 form they are, the core of
that text between the blanks at its ends, and the number that the core denotes. Each
one is said here as a relation between what goes in and what comes out, of which the
function computes the only solution.
-/
namespace SpanMetrics

namespace Text

theorem ofUtf8?_eq_some_iff {bytes : Bytes} {s : String} :
    ofUtf8? bytes = some s ↔ bytes = utf8 s := by
  constructor
  · intro h
    rw [ofUtf8?, String.fromUTF8?] at h
    split at h
    · obtain rfl := Option.some.inj h
      rfl
    · cases h
  · intro h
    rw [h]
    exact ofUtf8?_utf8 s

/-! ## The ends of a text -/

/-- A core is left of a text when blanks are taken from both of its ends and none remains
there. -/
structure Trims (s core : String) : Prop where
  around : ∃ before after, s.toList = before ++ core.toList ++ after ∧
    ∀ c ∈ before ++ after, isBlank c
  head : ∀ c ∈ core.toList.head?, ¬ isBlank c
  last : ∀ c ∈ core.toList.getLast?, ¬ isBlank c

theorem dropWhile_eq_iff {α : Type} {p : α → Bool} {xs rest : List α} :
    xs.dropWhile p = rest ↔
      ∃ before, xs = before ++ rest ∧ (∀ a ∈ before, p a) ∧ ∀ a ∈ rest.head?, ¬ p a := by
  constructor
  · intro h
    subst h
    refine ⟨xs.takeWhile p, List.takeWhile_append_dropWhile.symm, fun a => ?_, fun a ha => ?_⟩
    · exact fun ha => List.mem_takeWhile_imp ha
    · have := List.head?_dropWhile_not p xs
      rw [ha] at this
      simpa using this
  · intro ⟨before, hx, hb, hr⟩
    rw [hx, List.dropWhile_append_of_pos hb]
    cases rest with
    | nil => rfl
    | cons a rest => exact List.dropWhile_cons_of_neg (hr a rfl)

/-- What is left between the elements at both ends that satisfy a predicate. -/
theorem dropWhile_ends_eq_iff {α : Type} {p : α → Bool} {xs core : List α} :
    ((xs.dropWhile p).reverse.dropWhile p).reverse = core ↔
      (∃ before after, xs = before ++ core ++ after ∧ ∀ a ∈ before ++ after, p a) ∧
        (∀ a ∈ core.head?, ¬ p a) ∧ ∀ a ∈ core.getLast?, ¬ p a := by
  rw [List.reverse_eq_iff, dropWhile_eq_iff]
  constructor
  · intro ⟨after, hcore, ha, hlast⟩
    obtain ⟨before, hxs, hb, hhead⟩ := dropWhile_eq_iff.1 (Eq.refl (xs.dropWhile p))
    rw [List.reverse_eq_iff, List.reverse_append, List.reverse_reverse] at hcore
    rw [hcore] at hxs hhead
    refine ⟨⟨before, after.reverse, by rw [hxs, List.append_assoc], fun a h => ?_⟩,
      fun a h => ?_, fun a h => hlast a ?_⟩
    · rcases List.mem_append.1 h with h | h
      · exact hb a h
      · exact ha a (List.mem_reverse.1 h)
    · exact hhead a (List.mem_head?_append_of_mem_head? h)
    · rwa [List.head?_reverse]
  · intro ⟨⟨before, after, hxs, hends⟩, hhead, hlast⟩
    subst hxs
    obtain ⟨hb, ha⟩ := List.forall_mem_append.1 hends
    have hfirst : ∀ a ∈ core.reverse.head?, ¬ p a := by
      rwa [List.head?_reverse]
    by_cases hcore : core = []
    · -- nothing is left: the first pass takes all
      have hall : (before ++ core ++ after).dropWhile p = [] := by
        rw [hcore, List.append_nil, List.dropWhile_eq_nil_iff]
        exact hends
      exact ⟨[], by rw [hall, hcore]; rfl, fun a h => absurd h List.not_mem_nil, hfirst⟩
    · have hrest : (before ++ core ++ after).dropWhile p = core ++ after := by
        refine dropWhile_eq_iff.2 ⟨before, List.append_assoc _ _ _, hb, ?_⟩
        rwa [List.head?_append_of_ne_nil _ hcore]
      exact ⟨after.reverse, by rw [hrest, List.reverse_append],
        fun a h => ha a (List.mem_reverse.1 h), hfirst⟩

theorem trim_eq_iff {s core : String} : trim s = core ↔ Trims s core := by
  rw [trim, trimChars, ← String.toList_inj, String.toList_ofList, dropWhile_ends_eq_iff]
  exact ⟨fun h => ⟨h.1, h.2.1, h.2.2⟩, fun h => ⟨h.around, h.head, h.last⟩⟩

/-- The core between the occurrences of a character at both ends of a text. -/
theorem strip_eq_iff {c : Char} {s core : String} :
    strip c s = core ↔
      (∃ before after, s.toList = before ++ core.toList ++ after ∧
        ∀ d ∈ before ++ after, d = c) ∧
        core.toList.head? ≠ some c ∧ core.toList.getLast? ≠ some c := by
  have hends : ∀ end? : Option Char, (∀ d ∈ end?, ¬ (d == c) = true) ↔ end? ≠ some c := by
    intro end?
    simp only [beq_iff_eq]
    exact ⟨fun h hc => h c hc rfl, fun h d hd hdc => h (hdc ▸ hd)⟩
  rw [strip, ← String.toList_inj, String.toList_ofList, dropWhile_ends_eq_iff, hends, hends]
  simp only [beq_iff_eq]

end Text

namespace Numeral

/-! ## Numbers -/

/-- A text that denotes a number: perhaps a plus sign, and then the decimal digits of the
number, perhaps with zeros before them. -/
def Denotes (s : String) (n : Nat) : Prop :=
  ∃ digits : List Char, (s.toList = digits ∨ s.toList = '+' :: digits) ∧ digits ≠ [] ∧
    (∀ c ∈ digits, '0' ≤ c ∧ c ≤ '9') ∧
    n = Nat.ofDigits 10 (digits.reverse.map fun c => c.toNat - '0'.toNat)

theorem foldl_digits (cs : List Char) :
    cs.foldl (fun n c => 10 * n + (c.toNat - '0'.toNat)) 0 =
      Nat.ofDigits 10 (cs.reverse.map fun c => c.toNat - '0'.toNat) := by
  induction cs using List.reverseRecOn with
  | nil => rfl
  | append_singleton cs c ih =>
    rw [List.foldl_concat, ih, List.reverse_concat, List.map_cons, Nat.ofDigits_cons]
    push_cast
    omega

theorem digits?_eq_some_iff {cs : List Char} {n : Nat} :
    digits? cs = some n ↔ cs ≠ [] ∧ (∀ c ∈ cs, '0' ≤ c ∧ c ≤ '9') ∧
      n = Nat.ofDigits 10 (cs.reverse.map fun c => c.toNat - '0'.toNat) := by
  have hdigits : cs.all Char.isDigit ↔ ∀ c ∈ cs, '0' ≤ c ∧ c ≤ '9' := by
    simp only [List.all_eq_true, Char.isDigit, Bool.and_eq_true, decide_eq_true_eq, ge_iff_le,
      Char.le_def]
  rw [digits?, foldl_digits]
  split
  · next h =>
    rw [Bool.or_eq_true, List.isEmpty_iff, Bool.not_eq_true', ← Bool.not_eq_true, hdigits] at h
    refine iff_of_false (fun he => nomatch he) fun ⟨hne, hd, _⟩ => ?_
    exact h.elim hne fun hn => hn hd
  · next h =>
    rw [Bool.or_eq_true, List.isEmpty_iff, Bool.not_eq_true', ← Bool.not_eq_true, hdigits,
      not_or, not_not] at h
    rw [Option.some_inj, eq_comm]
    exact ⟨fun he => ⟨h.1, h.2, he⟩, fun he => he.2.2⟩

/-- A plus sign is no digit, so at most one way to read a text leaves only digits. -/
theorem unsigned?_eq_some_iff {limit n : Nat} {s : String} :
    unsigned? limit s = some n ↔ Denotes s n ∧ n < limit := by
  rw [unsigned?, Option.filter_eq_some_iff, decide_eq_true_eq]
  refine and_congr_left' ?_
  split
  · next rest hs =>
    rw [digits?_eq_some_iff]
    constructor
    · intro h
      exact ⟨rest, .inr hs, h⟩
    · intro h
      obtain ⟨digits, hd, hne, hall, hn⟩ := h
      rcases hd with hd | hd
      · rw [← hd, hs] at hall
        exact absurd (hall '+' List.mem_cons_self) (by decide)
      · rw [hs, List.cons.injEq] at hd
        rw [hd.2]
        exact ⟨hne, hall, hn⟩
  · next hs =>
    rw [digits?_eq_some_iff]
    constructor
    · intro h
      exact ⟨s.toList, .inl rfl, h⟩
    · intro h
      obtain ⟨digits, hd, h⟩ := h
      rcases hd with hd | hd
      · rwa [hd]
      · exact absurd hd (hs digits)

theorem Denotes.unique {s : String} {n m : Nat} (hn : Denotes s n) (hm : Denotes s m) : n = m := by
  have hl : n < n + m + 1 ∧ m < n + m + 1 := by omega
  exact Option.some.inj <|
    (unsigned?_eq_some_iff.2 ⟨hn, hl.1⟩).symm.trans (unsigned?_eq_some_iff.2 ⟨hm, hl.2⟩)

/-- A text that denotes a whole number: perhaps a sign, and then the decimal digits of its
amount, perhaps with zeros before them. -/
def DenotesInt (s : String) (k : Int) : Prop :=
  ∃ (digits : List Char) (n : Nat), digits ≠ [] ∧ (∀ c ∈ digits, '0' ≤ c ∧ c ≤ '9') ∧
    n = Nat.ofDigits 10 (digits.reverse.map fun c => c.toNat - '0'.toNat) ∧
    ((s.toList = digits ∨ s.toList = '+' :: digits) ∧ k = n ∨ s.toList = '-' :: digits ∧ k = -n)

/-- The signs are no digits, so at most one way to read a text leaves only digits. -/
theorem signed?_eq_some_iff {limit : Nat} {s : String} {k : Int} :
    signed? limit s = some k ↔ DenotesInt s k ∧ -(limit : Int) ≤ k ∧ k < limit := by
  rw [signed?, Option.filter_eq_some_iff, Bool.and_eq_true, decide_eq_true_eq, decide_eq_true_eq]
  refine and_congr_left' ?_
  have hplus : ¬ ('0' ≤ '+' ∧ '+' ≤ '9') := by decide
  have hminus : ¬ ('0' ≤ '-' ∧ '-' ≤ '9') := by decide
  constructor
  · intro h
    split at h
    · next hs =>
      obtain ⟨m, hm, rfl⟩ := Option.map_eq_some_iff.1 h
      obtain ⟨n, hn, hp⟩ := Option.bind_eq_some_iff.1 hm
      obtain rfl := Option.some.inj hp
      obtain ⟨hne, hall, hd⟩ := digits?_eq_some_iff.1 hn
      exact ⟨_, n, hne, hall, hd, .inr ⟨hs, rfl⟩⟩
    · next hs =>
      obtain ⟨n, hn, rfl⟩ := Option.map_eq_some_iff.1 h
      obtain ⟨hne, hall, hd⟩ := digits?_eq_some_iff.1 hn
      exact ⟨_, n, hne, hall, hd, .inl ⟨.inr hs, rfl⟩⟩
    · obtain ⟨n, hn, rfl⟩ := Option.map_eq_some_iff.1 h
      obtain ⟨hne, hall, hd⟩ := digits?_eq_some_iff.1 hn
      exact ⟨_, n, hne, hall, hd, .inl ⟨.inl rfl, rfl⟩⟩
  · intro ⟨digits, n, hne, hall, hd, h⟩
    have hn : digits? digits = some n := digits?_eq_some_iff.2 ⟨hne, hall, hd⟩
    rcases h with ⟨hs | hs, rfl⟩ | ⟨hs, rfl⟩ <;> rw [hs]
    · split
      · exact absurd (hall _ List.mem_cons_self) hminus
      · exact absurd (hall _ List.mem_cons_self) hplus
      · exact Option.map_eq_some_iff.2 ⟨n, hn, rfl⟩
    · exact Option.map_eq_some_iff.2 ⟨n, hn, rfl⟩
    · exact Option.map_eq_some_iff.2 ⟨n, Option.bind_eq_some_iff.2 ⟨n, hn, rfl⟩, rfl⟩

end Numeral
end SpanMetrics
