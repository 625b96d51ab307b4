import Mathlib
import SpanMetrics.Deflate.Inflate

/-!
# Reading back code words

A tree that was built from the words of a code leads each word to its symbol,
whatever follows the word. The fixed codes are the only ones that the compressing
side uses, and each of their symbols has a word.
-/
namespace SpanMetrics.Deflate

namespace Code

namespace Tree

/-- What follows a word is left alone. -/
theorem read?_append {t : Tree} {word : Bits} {symbol : Nat}
    (h : t.read? word = some (symbol, [])) (rest : Bits) :
    t.read? (word ++ rest) = some (symbol, rest) := by
  induction t generalizing word with
  | empty => simp [read?] at h
  | leaf s =>
    rw [read?] at h
    obtain ⟨rfl, rfl⟩ := Prod.mk.inj (Option.some.inj h)
    rw [List.nil_append, read?]
  | node left right ihl ihr =>
    cases word with
    | nil => simp [read?] at h
    | cons b word =>
      rw [read?] at h
      rw [List.cons_append, read?]
      cases b with
      | false => exact ihl h
      | true => exact ihr h

/-- The word of a new leaf leads to it. -/
theorem read?_of_insert? {t after : Tree} {word : Bits} {symbol : Nat}
    (h : t.insert? symbol word = some after) : after.read? word = some (symbol, []) := by
  induction word generalizing t after with
  | nil =>
    cases t with
    | empty =>
      obtain rfl := Option.some.inj h
      rfl
    | leaf s => simp [insert?] at h
    | node left right => simp [insert?] at h
  | cons b word ih =>
    cases t with
    | leaf s => cases b <;> simp [insert?] at h
    | empty =>
      cases b with
      | false =>
        rw [insert?] at h
        obtain ⟨left, hl, rfl⟩ := Option.map_eq_some_iff.1 h
        exact ih hl
      | true =>
        rw [insert?] at h
        obtain ⟨right, hr, rfl⟩ := Option.map_eq_some_iff.1 h
        exact ih hr
    | node left right =>
      cases b with
      | false =>
        rw [insert?] at h
        obtain ⟨left, hl, rfl⟩ := Option.map_eq_some_iff.1 h
        exact ih hl
      | true =>
        rw [insert?] at h
        obtain ⟨right, hr, rfl⟩ := Option.map_eq_some_iff.1 h
        exact ih hr

/-- The words of the leaves before still lead to them. -/
theorem read?_insert?_of_some {t after : Tree} {word other : Bits} {symbol found : Nat}
    (h : t.insert? symbol word = some after) (ho : t.read? other = some (found, [])) :
    after.read? other = some (found, []) := by
  induction word generalizing t after other with
  | nil =>
    cases t with
    | empty => simp [read?] at ho
    | leaf s => simp [insert?] at h
    | node left right => simp [insert?] at h
  | cons b word ih =>
    cases t with
    | empty => simp [read?] at ho
    | leaf s => cases b <;> simp [insert?] at h
    | node left right =>
      cases other with
      | nil => simp [read?] at ho
      | cons c other =>
        rw [read?] at ho
        cases b with
        | false =>
          rw [insert?] at h
          obtain ⟨grown, hl, rfl⟩ := Option.map_eq_some_iff.1 h
          cases c with
          | false =>
            have hg := ih hl ho
            rw [read?]
            exact hg
          | true => exact ho
        | true =>
          rw [insert?] at h
          obtain ⟨grown, hr, rfl⟩ := Option.map_eq_some_iff.1 h
          cases c with
          | false => exact ho
          | true =>
            have hg := ih hr ho
            rw [read?]
            exact hg

end Tree

theorem exists_mem_assign {entries : List (Nat × Nat)} {symbol length : Nat}
    (h : (symbol, length) ∈ entries) (next width : Nat) :
    ∃ word, (symbol, word) ∈ assign next width entries := by
  induction entries generalizing next width with
  | nil => exact absurd h List.not_mem_nil
  | cons entry entries ih =>
    obtain ⟨s, l⟩ := entry
    rw [assign]
    rcases List.mem_cons.1 h with he | hm
    · obtain ⟨rfl, rfl⟩ := Prod.mk.inj he
      exact ⟨_, List.mem_cons_self⟩
    · obtain ⟨word, hw⟩ := ih hm (next <<< (l - width) + 1) l
      exact ⟨word, List.mem_cons_of_mem _ hw⟩

theorem mem_of_mem_assign {entries : List (Nat × Nat)} {symbol : Nat} {word : Bits}
    {next width : Nat} (h : (symbol, word) ∈ assign next width entries) :
    (symbol, word.length) ∈ entries := by
  induction entries generalizing next width with
  | nil => exact absurd h List.not_mem_nil
  | cons entry entries ih =>
    obtain ⟨s, l⟩ := entry
    rw [assign] at h
    rcases List.mem_cons.1 h with he | hm
    · obtain ⟨rfl, rfl⟩ := Prod.mk.inj he
      rw [Bits.high, List.length_reverse, Bits.length_low]
      exact List.mem_cons_self
    · exact List.mem_cons_of_mem _ (ih hm)

theorem mem_inOrder {lengths : List Nat} {symbol length : Nat} :
    (symbol, length) ∈ inOrder lengths ↔
      1 ≤ length ∧ length ≤ longestWord ∧ lengths[symbol]? = some length := by
  simp only [inOrder, List.mem_flatMap, List.mem_range'_1, List.mem_filterMap, Prod.exists,
    List.mem_zipIdx_iff_getElem?]
  constructor
  · rintro ⟨width, ⟨hl, hu⟩, l, s, hs, he⟩
    split at he
    · next hw =>
      obtain ⟨rfl, rfl⟩ := Prod.mk.inj (Option.some.inj he)
      exact ⟨by omega, by omega, hs⟩
    · exact absurd he (by simp)
  · rintro ⟨hl, hu, hs⟩
    exact ⟨length, ⟨hl, by omega⟩, length, symbol, hs, by simp⟩

theorem read?_of_foldlM {code : List (Nat × Bits)} {t after : Tree}
    (h : code.foldlM (fun tree (symbol, word) => tree.insert? symbol word) t = some after) :
    (∀ symbol word, t.read? word = some (symbol, []) →
      after.read? word = some (symbol, [])) ∧
    ∀ symbol word, (symbol, word) ∈ code → after.read? word = some (symbol, []) := by
  induction code generalizing t with
  | nil =>
    obtain rfl := Option.some.inj h
    exact ⟨fun _ _ ht => ht, fun _ _ hm => absurd hm List.not_mem_nil⟩
  | cons entry code ih =>
    obtain ⟨s, w⟩ := entry
    rw [List.foldlM_cons] at h
    obtain ⟨next, hn, hrest⟩ := Option.bind_eq_some_iff.1 h
    obtain ⟨hold, hnew⟩ := ih hrest
    refine ⟨fun symbol word ht => hold _ _ (Tree.read?_insert?_of_some hn ht), ?_⟩
    intro symbol word hm
    rcases List.mem_cons.1 hm with he | hm
    · obtain ⟨rfl, rfl⟩ := Prod.mk.inj he
      exact hold _ _ (Tree.read?_of_insert? hn)
    · exact hnew _ _ hm

/-- Every word of a code is read back as its symbol. -/
theorem read?_word {lengths : List Nat} {t : Tree} (h : tree? lengths = some t) {symbol : Nat}
    {word : Bits} (hm : (symbol, word) ∈ words lengths) (rest : Bits) :
    t.read? (word ++ rest) = some (symbol, rest) := by
  rw [tree?] at h
  obtain ⟨built, hb, ht⟩ := Option.bind_eq_some_iff.1 h
  have he : built = t := by
    split at ht
    · exact Option.some.inj ht
    · exact absurd ht (by simp)
  rw [← he]
  exact Tree.read?_append ((read?_of_foldlM hb).2 _ _ hm) rest

end Code

theorem isSome_fixedCodes? : fixedCodes?.isSome = true := by decide +kernel

/-- The fixed codes. -/
def fixedCodes : CodePair := fixedCodes?.get isSome_fixedCodes?

theorem fixedCodes?_eq : fixedCodes? = some fixedCodes := (Option.some_get _).symm

theorem tree?_literals : Code.tree? fixedLengths = some fixedCodes.literals := by
  have h := fixedCodes?_eq
  rw [fixedCodes?, CodePair.ofLengths?] at h
  obtain ⟨literals, hl, h⟩ := Option.bind_eq_some_iff.1 h
  obtain ⟨distances, -, h⟩ := Option.bind_eq_some_iff.1 h
  rw [hl, ← Option.some.inj h]

theorem tree?_distances : Code.tree? fixedDistances = some fixedCodes.distances := by
  have h := fixedCodes?_eq
  rw [fixedCodes?, CodePair.ofLengths?] at h
  obtain ⟨literals, -, h⟩ := Option.bind_eq_some_iff.1 h
  obtain ⟨distances, hd, h⟩ := Option.bind_eq_some_iff.1 h
  rw [hd, ← Option.some.inj h]

theorem length_fixedLengths : fixedLengths.length = 288 := by
  simp only [fixedLengths, List.length_append, List.length_replicate]

theorem fixedWord_eq {symbol : Nat} (h : symbol < 288) :
    fixedWord symbol = ((Code.words fixedLengths).lookup symbol).getD [] := by
  simp [fixedWord, fixedWords, length_fixedLengths, h]

theorem mem_fixedWords {symbol : Nat} (hs : symbol < 288) :
    (symbol, fixedWord symbol) ∈ Code.words fixedLengths := by
  have h : symbol < fixedLengths.length := by rw [length_fixedLengths]; exact hs
  have hb : ∀ l ∈ fixedLengths, 1 ≤ l ∧ l ≤ Code.longestWord := by decide +kernel
  obtain ⟨hl, hu⟩ := hb _ (List.getElem_mem h)
  have hm := Code.mem_inOrder.2 ⟨hl, hu, List.getElem?_eq_getElem h⟩
  obtain ⟨word, hw⟩ := Code.exists_mem_assign hm 0 0
  have hi : ((Code.words fixedLengths).lookup symbol).isSome := by
    rw [List.lookup_isSome_iff]
    exact ⟨_, hw, beq_self_eq_true symbol⟩
  obtain ⟨found, hf⟩ := Option.isSome_iff_exists.1 hi
  rw [fixedWord_eq hs, hf, Option.getD_some]
  obtain ⟨left, right, he, -⟩ := List.lookup_eq_some_iff.1 hf
  rw [he]
  exact List.mem_append_right _ List.mem_cons_self

theorem read?_fixedWord {symbol : Nat} (h : symbol < 288) (rest : Bits) :
    fixedCodes.literals.read? (fixedWord symbol ++ rest) = some (symbol, rest) :=
  Code.read?_word tree?_literals (mem_fixedWords h) rest

theorem length_fixedWord {symbol : Nat} (h : symbol < 288) :
    7 ≤ (fixedWord symbol).length ∧ (fixedWord symbol).length ≤ 9 := by
  have hb : ∀ l ∈ fixedLengths, 7 ≤ l ∧ l ≤ 9 := by decide +kernel
  have hm := (Code.mem_inOrder.1 (Code.mem_of_mem_assign (mem_fixedWords h))).2.2
  exact hb _ (List.mem_of_getElem? hm)

theorem read?_fixedDistance {place : Nat} (h : place < 32) (rest : Bits) :
    fixedCodes.distances.read? (Bits.high 5 place ++ rest) = some (place, rest) := by
  have hw : Code.words fixedDistances =
      (List.range 32).map fun place => (place, Bits.high 5 place) := by decide +kernel
  refine Code.read?_word tree?_distances ?_ rest
  rw [hw]
  exact List.mem_map.2 ⟨place, List.mem_range.2 h, rfl⟩

end SpanMetrics.Deflate
