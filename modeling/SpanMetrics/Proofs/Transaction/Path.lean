import SpanMetrics.Proofs.Text.Pieces
import SpanMetrics.Transaction.Path

/-!
# The beginning of a path

The name that a path gives is a beginning of the path: the longest one in which no
more than two slashes stand behind the first character. Segments joined again have
one slash less than there are segments, so taking three segments, or four if the
first one is the empty one before a leading slash, takes the text up to the slash
that would be the third.
-/
namespace SpanMetrics.Transaction

/-! ## Segments -/

variable {α : Type} [DecidableEq α] {sep : α}

theorem count_intercalate {pieces : List (List α)} (hne : pieces ≠ [])
    (h : ∀ piece ∈ pieces, sep ∉ piece) :
    ([sep].intercalate pieces).count sep + 1 = pieces.length := by
  induction pieces with
  | nil => exact absurd rfl hne
  | cons piece pieces ih =>
    obtain ⟨hp, hrest⟩ := List.forall_mem_cons.1 h
    by_cases hnil : pieces = []
    · rw [hnil, List.intercalate_singleton, List.count_eq_zero_of_not_mem hp]
      rfl
    · rw [List.intercalate_cons_of_ne_nil hnil, List.count_append, List.count_append,
        List.count_eq_zero_of_not_mem hp, List.count_singleton_self, List.length_cons,
        ← ih hnil hrest]
      omega

/-- The text of the first segments ends before the separator that has as many before it
as segments less one, or it is the whole text. -/
theorem take_splitOn (sep : α) {kept : Nat} (hk : 0 < kept) (text : List α) :
    let start := [sep].intercalate ((text.splitOn sep).take kept)
    start.count sep < kept ∧
      (start = text ∨ start.count sep + 1 = kept ∧ ∃ rest, text = start ++ sep :: rest) := by
  intro start
  have hjoin : [sep].intercalate (text.splitOn sep) = text := List.intercalate_splitOn sep
  have hne : (text.splitOn sep).take kept ≠ [] := by
    rw [ne_eq, List.take_eq_nil_iff, not_or]
    exact ⟨by omega, List.splitOn_ne_nil sep text⟩
  have hcount : start.count sep + 1 = min kept (text.splitOn sep).length := by
    rw [← List.length_take]
    exact count_intercalate hne fun piece hp => not_mem_of_mem_splitOn (List.mem_of_mem_take hp)
  refine ⟨by omega, ?_⟩
  by_cases hle : (text.splitOn sep).length ≤ kept
  · left
    show [sep].intercalate ((text.splitOn sep).take kept) = text
    rw [List.take_of_length_le hle, hjoin]
  · have hdrop : (text.splitOn sep).drop kept ≠ [] := by
      rw [ne_eq, List.drop_eq_nil_iff]
      exact hle
    refine .inr ⟨by omega, [sep].intercalate ((text.splitOn sep).drop kept), ?_⟩
    rw [← intercalate_append hne hdrop, List.take_append_drop, hjoin]

/-- A longer beginning of the text has the separator too at which its first segments end. -/
theorem length_le_of_count {kept : Nat} {text start other : List α}
    (hends : start = text ∨ start.count sep + 1 = kept ∧ ∃ rest, text = start ++ sep :: rest)
    (ho : other <+: text) (hcount : other.count sep < kept) : other.length ≤ start.length := by
  rcases hends with rfl | ⟨hcut, rest, he⟩
  · exact ho.length_le
  · by_contra hlt
    have hlonger : start ++ [sep] <+: other := by
      refine List.prefix_of_prefix_length_le ⟨rest, ?_⟩ ho ?_
      · rw [he, List.append_assoc, List.singleton_append]
      · rw [List.length_append, List.length_singleton]
        omega
    have hle := hlonger.count_le sep
    rw [List.count_append, List.count_singleton_self] at hle
    omega

/-! ## Slashes -/

/-- The slashes of a text, without one at its start. -/
def innerSlashes (s : String) : Nat := s.toList.tail.count '/'

/-- The longest beginning of a path with no more than two inner slashes. -/
structure Heads (path start : String) : Prop where
  begins : start.toList <+: path.toList
  slashes : innerSlashes start ≤ 2
  longest : ∀ other : String, other.toList <+: path.toList → innerSlashes other ≤ 2 →
    other.length ≤ start.length

theorem Heads.unique {path a b : String} (ha : Heads path a) (hb : Heads path b) : a = b := by
  have hle : a.toList.length = b.toList.length := by
    rw [String.length_toList, String.length_toList]
    exact le_antisymm (hb.longest a ha.begins ha.slashes) (ha.longest b hb.begins hb.slashes)
  exact String.toList_inj.1 <|
    (List.prefix_of_prefix_length_le ha.begins hb.begins hle.le).eq_of_length hle

/-- A beginning is its own longest one. -/
theorem Heads.self {path start : String} (h : Heads path start) : Heads start start :=
  ⟨List.prefix_rfl, h.slashes, fun _ ho _ => by
    simpa only [String.length_toList] using ho.length_le⟩

theorem Heads.ne_empty {path start : String} (h : Heads path start) (hp : path ≠ "") :
    start ≠ "" := by
  rintro rfl
  obtain ⟨c, rest, hc⟩ := List.exists_cons_of_ne_nil fun he => hp (String.toList_inj.1 he)
  have hfirst : (String.ofList [c]).toList <+: path.toList := by
    rw [hc, String.toList_ofList]
    exact ⟨rest, rfl⟩
  have hle := h.longest (.ofList [c]) hfirst (by simp [innerSlashes])
  rw [String.length_ofList] at hle
  exact absurd hle (Nat.not_succ_le_zero 0)

/-- Beginnings of a path that are not empty share its first character, so all their
slashes are the inner ones and perhaps that one. -/
theorem count_slash {c : Char} {rest text : List Char} (h : text <+: c :: rest) (hn : text ≠ []) :
    text.count '/' = text.tail.count '/' + if c = '/' then 1 else 0 := by
  obtain ⟨d, more, rfl⟩ := List.exists_cons_of_ne_nil hn
  obtain ⟨rfl, -⟩ := List.cons_prefix_cons.1 h
  rw [List.count_cons, List.tail_cons]
  simp only [beq_iff_eq]

/-- The name of a path is its longest beginning, and ends at the third inner slash if
there is one. -/
theorem heads_ofPath {path : String} (h : path ≠ "") :
    Heads path (ofPath path) ∧
      (ofPath path = path ∨
        innerSlashes (ofPath path) = 2 ∧ ∃ rest, path = ofPath path ++ "/" ++ rest) := by
  obtain ⟨c, rest, hc⟩ := List.exists_cons_of_ne_nil fun he => h (String.toList_inj.1 he)
  obtain ⟨kept, hkept⟩ : ∃ kept, kept = 3 + if c = '/' then 1 else 0 := ⟨_, rfl⟩
  have hpos : 0 < kept := by omega
  obtain ⟨hcount, hends⟩ := take_splitOn '/' hpos (c :: rest)
  obtain ⟨start, hstart⟩ : ∃ start,
    start = ['/'].intercalate (((c :: rest).splitOn '/').take kept) := ⟨_, rfl⟩
  rw [← hstart] at hcount hends
  have hof : ofPath path = .ofList start := by
    rw [ofPath, if_neg h, hc, hstart, hkept]
    by_cases hs : c = '/' <;> simp [hs, segmentLimit]
  have hbegins : start <+: c :: rest := by
    rcases hends with he | ⟨-, more, he⟩
    · exact he ▸ List.prefix_rfl
    · exact ⟨_, he.symm⟩
  have hne : start ≠ [] := by
    rintro rfl
    rcases hends with he | ⟨he, -⟩
    · cases he
    · rw [List.count_nil] at he
      omega
  have hslashes : start.count '/' = innerSlashes (ofPath path) + if c = '/' then 1 else 0 := by
    rw [hof, innerSlashes, String.toList_ofList]
    exact count_slash hbegins hne
  refine ⟨⟨?_, by omega, fun other ho hi => ?_⟩, ?_⟩
  · rw [hof, hc, String.toList_ofList]
    exact hbegins
  · rw [hc] at ho
    rw [hof, String.length_ofList, ← String.length_toList]
    by_cases hnil : other.toList = []
    · rw [hnil]
      exact Nat.zero_le _
    · have hother := count_slash ho hnil
      rw [innerSlashes] at hi
      exact length_le_of_count hends ho (by omega)
  · rcases hends with he | ⟨hcut, more, he⟩
    · left
      rw [hof, he, ← hc, String.ofList_toList]
    · refine .inr ⟨by omega, .ofList more, String.toList_inj.1 ?_⟩
      rw [hof, hc, he]
      simp

theorem ofPath_ofPath (path : String) : ofPath (ofPath path) = ofPath path := by
  by_cases h : path = ""
  · subst h
    decide +kernel
  · have hstart := (heads_ofPath h).1
    exact (heads_ofPath (hstart.ne_empty h)).1.unique hstart.self

end SpanMetrics.Transaction
