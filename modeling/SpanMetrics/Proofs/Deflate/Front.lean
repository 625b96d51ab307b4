import SpanMetrics.Deflate.Lemmas
import SpanMetrics.Proofs.Deflate.Code

/-!
# Reading from the front

A reader takes bits from the front and gives back those after them. What it makes of
the bits that it takes does not depend on the others, except that the skip to the end
of a byte counts them modulo eight. `Frontal` says this of a reader together with how
many bits it takes at least; readers that are put together from such readers are such
readers, from a number of fixed width up to a whole block.
-/
namespace SpanMetrics.Deflate

/-- Takes at least so many bits, and reads the same from them before any other bits that
end a byte at the same place. -/
def Frontal {α : Type} (least : Nat) (read : Bits → Option (α × Bits)) : Prop :=
  ∀ bits a rest, read bits = some (a, rest) →
    ∃ front, bits = front ++ rest ∧ least ≤ front.length ∧
      ∀ other : Bits, other.length % 8 = rest.length % 8 → read (front ++ other) = some (a, other)

namespace Frontal

variable {α β : Type} {m n : Nat} {read : Bits → Option (α × Bits)}

theorem mono (h : Frontal n read) (hm : m ≤ n) : Frontal m read := by
  intro bits a rest hr
  obtain ⟨front, hb, hl, hf⟩ := h bits a rest hr
  exact ⟨front, hb, hm.trans hl, hf⟩

theorem none : Frontal (α := α) n fun _ => none := fun _ _ _ h => nomatch h

theorem pure (a : α) : Frontal 0 fun bits => some (a, bits) := by
  intro bits b rest h
  obtain ⟨rfl, rfl⟩ := Prod.mk.inj (Option.some.inj h)
  exact ⟨[], rfl, Nat.zero_le _, fun _ _ => rfl⟩

/-- One reader and then another one, which may be chosen by what the first one read. -/
theorem bind {next : α × Bits → Option (β × Bits)} (h : Frontal m read)
    (hn : ∀ a, (∃ bits rest, read bits = some (a, rest)) → Frontal n fun bits => next (a, bits)) :
    Frontal (m + n) fun bits => read bits >>= next := by
  intro bits b rest hr
  obtain ⟨⟨a, middle⟩, ha, hb⟩ := Option.bind_eq_some_iff.1 hr
  obtain ⟨front, rfl, hl, hf⟩ := h bits a middle ha
  obtain ⟨more, rfl, hml, hmf⟩ := hn a ⟨_, _, ha⟩ middle b rest hb
  refine ⟨front ++ more, (List.append_assoc _ _ _).symm, ?_, fun other ho => ?_⟩
  · rw [List.length_append]
    omega
  · have hmod : (more ++ other).length % 8 = (more ++ rest).length % 8 := by
      rw [List.length_append, List.length_append]
      omega
    show read (front ++ more ++ other) >>= next = _
    rw [List.append_assoc, hf _ hmod]
    exact hmf other ho

theorem ite {p : Prop} [Decidable p] {other : Bits → Option (α × Bits)} (h : p → Frontal n read)
    (ho : ¬p → Frontal n other) : Frontal n fun bits => if p then read bits else other bits := by
  by_cases hp : p
  · simp only [if_pos hp]
    exact h hp
  · simp only [if_neg hp]
    exact ho hp

/-- A value that may be missing decides how to read on. -/
theorem option {value : Option β} {next : β → Bits → Option (α × Bits)}
    (h : ∀ b, value = some b → Frontal n (next b)) :
    Frontal n fun bits => value >>= fun b => next b bits := by
  cases value with
  | none => exact Frontal.none
  | some b => exact h b rfl

/-- A reader after the skip to the end of a byte. -/
theorem align (h : Frontal n read) : Frontal n fun bits => read (Bits.align bits) := by
  intro bits a rest hr
  obtain ⟨front, hb, hl, hf⟩ := h _ a rest hr
  have hsplit : bits = bits.take (bits.length % 8) ++ (front ++ rest) := by
    rw [← hb, Bits.align, List.take_append_drop]
  have hskip : (bits.take (bits.length % 8)).length = bits.length % 8 :=
    List.length_take_of_le (Nat.mod_le _ _)
  refine ⟨bits.take (bits.length % 8) ++ front, ?_, ?_, fun other ho => ?_⟩
  · rw [List.append_assoc]
    exact hsplit
  · rw [List.length_append]
    omega
  · have hlen := congrArg List.length hsplit
    simp only [List.length_append, hskip] at hlen
    have ha : (front ++ other).length % 8 = 0 := by
      rw [List.length_append]
      omega
    have hshort : (bits.take (bits.length % 8)).length < 8 := by omega
    show read (Bits.align (_ ++ front ++ other)) = _
    rw [List.append_assoc, Bits.align_append hshort ha]
    exact hf other ho

end Frontal

/-! ## Numbers and code words -/

theorem Bits.frontal_read? (width : Nat) : Frontal width (Bits.read? width) := by
  intro bits a rest h
  induction width generalizing bits a with
  | zero =>
    obtain ⟨rfl, rfl⟩ := Prod.mk.inj (Option.some.inj h)
    exact ⟨[], rfl, le_rfl, fun _ _ => rfl⟩
  | succ width ih =>
    cases bits with
    | nil => cases h
    | cons b bits =>
      rw [Bits.read?] at h
      obtain ⟨⟨n, more⟩, hn, he⟩ := Option.map_eq_some_iff.1 h
      obtain ⟨rfl, rfl⟩ := Prod.mk.inj he
      obtain ⟨front, rfl, hl, hf⟩ := ih bits n hn
      refine ⟨b :: front, rfl, Nat.succ_le_succ hl, fun other ho => ?_⟩
      rw [List.cons_append, Bits.read?, hf other ho]
      rfl

namespace Code

/-- Whether every word has at least so many bits. -/
def Tree.atLeast : Nat → Tree → Bool
  | 0, _ => true
  | _ + 1, leaf _ => false
  | _ + 1, empty => true
  | n + 1, node left right => left.atLeast n && right.atLeast n

theorem Tree.atLeast_zero (t : Tree) : t.atLeast 0 := by cases t <;> rfl

theorem Tree.frontal_read? {n : Nat} {t : Tree} (h : t.atLeast n) : Frontal n t.read? := by
  intro bits symbol rest hr
  induction t generalizing n bits with
  | empty => simp [read?] at hr
  | leaf s =>
    cases n with
    | zero =>
      rw [read?] at hr
      obtain ⟨rfl, rfl⟩ := Prod.mk.inj (Option.some.inj hr)
      exact ⟨[], rfl, le_rfl, fun other _ => by rw [List.nil_append, read?]⟩
    | succ n => cases h
  | node left right ihl ihr =>
    cases bits with
    | nil => cases hr
    | cons b bits =>
      have hb : ((if b then right else left).atLeast (n - 1)) = true := by
        cases n with
        | zero => exact atLeast_zero _
        | succ n =>
          obtain ⟨hleft, hright⟩ := Bool.and_eq_true_iff.1 h
          cases b
          · exact hleft
          · exact hright
      have hi : ∃ front, bits = front ++ rest ∧ n - 1 ≤ front.length ∧
          ∀ other : Bits, other.length % 8 = rest.length % 8 →
            (if b then right else left).read? (front ++ other) = some (symbol, other) := by
        cases b
        · exact ihl hb bits hr
        · exact ihr hb bits hr
      obtain ⟨front, rfl, hl, hf⟩ := hi
      refine ⟨b :: front, rfl, ?_, fun other ho => hf other ho⟩
      rw [List.length_cons]
      omega

/-- A leaf that is hung below the root leaves no word empty. -/
theorem Tree.atLeast_insert? {t after : Tree} {symbol : Nat} {word : Bits}
    (h : t.insert? symbol word = some after) (ht : t.atLeast 1) (hw : word ≠ []) :
    after.atLeast 1 := by
  cases word with
  | nil => exact absurd rfl hw
  | cons b word =>
    cases t with
    | leaf s => cases ht
    | empty =>
      cases b <;>
      · obtain ⟨child, -, rfl⟩ := Option.map_eq_some_iff.1 h
        rfl
    | node left right =>
      cases b <;>
      · obtain ⟨child, -, rfl⟩ := Option.map_eq_some_iff.1 h
        rfl

theorem atLeast_foldlM {code : List (Nat × Bits)} {t after : Tree}
    (h : code.foldlM (fun tree (symbol, word) => tree.insert? symbol word) t = some after)
    (ht : t.atLeast 1) (hw : ∀ entry ∈ code, entry.2 ≠ []) : after.atLeast 1 := by
  induction code generalizing t with
  | nil =>
    obtain rfl := Option.some.inj h
    exact ht
  | cons entry code ih =>
    rw [List.foldlM_cons] at h
    obtain ⟨next, hn, hrest⟩ := Option.bind_eq_some_iff.1 h
    obtain ⟨he, hcode⟩ := List.forall_mem_cons.1 hw
    exact ih hrest (Tree.atLeast_insert? hn ht he) hcode

/-- No code has an empty word. -/
theorem atLeast_tree? {lengths : List Nat} {t : Tree} (h : tree? lengths = some t) :
    t.atLeast 1 := by
  rw [tree?] at h
  obtain ⟨built, hb, ht⟩ := Option.bind_eq_some_iff.1 h
  have hw : ∀ entry ∈ words lengths, entry.2 ≠ [] := by
    rintro ⟨symbol, word⟩ hm rfl
    have hl := (mem_inOrder.1 (mem_of_mem_assign hm)).1
    exact absurd hl (by decide)
  have he : built = t := by
    split at ht
    · exact Option.some.inj ht
    · exact absurd ht (by simp)
  exact he ▸ atLeast_foldlM hb rfl hw

end Code

theorem atLeast_of_ofLengths? {literals distances : List Nat} {codes : CodePair}
    (h : CodePair.ofLengths? literals distances = some codes) : codes.literals.atLeast 1 := by
  rw [CodePair.ofLengths?] at h
  obtain ⟨tree, ht, h⟩ := Option.bind_eq_some_iff.1 h
  obtain ⟨other, -, h⟩ := Option.bind_eq_some_iff.1 h
  obtain rfl := Option.some.inj h
  exact Code.atLeast_tree? ht

theorem atLeast_fixedCodes : fixedCodes.literals.atLeast 7 := by
  have hall : fixedCodes?.all (·.literals.atLeast 7) = true := by decide +kernel
  rwa [fixedCodes?_eq, Option.all_some] at hall

/-! ## Tokens -/

theorem frontal_rangeValue? (ranges : List ValueRange) (place : Nat) :
    Frontal 0 (rangeValue? ranges place) := by
  refine Frontal.option fun range _ => ?_
  refine Frontal.mono (n := range.extra + 0) ?_ (Nat.zero_le _)
  refine (Bits.frontal_read? range.extra).bind fun offset _ => ?_
  exact Frontal.pure _

theorem frontal_readToken? {codes : CodePair} {n : Nat} (h : codes.literals.atLeast n) :
    Frontal n (readToken? codes) := by
  refine (Code.Tree.frontal_read? h).bind (n := 0) fun symbol _ => ?_
  refine Frontal.ite (fun _ => Frontal.pure _) fun _ => ?_
  refine Frontal.ite (fun _ => Frontal.pure _) fun _ => ?_
  refine (frontal_rangeValue? _ _).bind (n := 0) fun length _ => ?_
  refine (Code.Tree.frontal_read? codes.distances.atLeast_zero).bind (n := 0) fun place _ => ?_
  refine (frontal_rangeValue? _ _).bind (n := 0) fun distance _ => ?_
  exact Frontal.pure _

/-- Tokens up to the end of a block, in a number of steps that is not counted in bits. -/
theorem frontal_readTokens? {codes : CodePair} {n : Nat} (h : codes.literals.atLeast n)
    (steps : Nat) (past : Bytes) : Frontal n (readTokens? codes steps past) := by
  induction steps generalizing past with
  | zero => exact Frontal.none
  | succ steps ih =>
    refine (frontal_readToken? h).bind (n := 0) fun token _ => ?_
    cases token with
    | none => exact Frontal.pure past
    | some token => exact Frontal.option fun next _ => (ih next).mono (Nat.zero_le _)

/-- Every token takes a bit, so as many steps as bits are taken are enough. -/
theorem readTokens?_of_length_le {codes : CodePair} (h : codes.literals.atLeast 1)
    {steps more : Nat} {past after : Bytes} {bits rest : Bits}
    (hr : readTokens? codes steps past bits = some (after, rest))
    (hm : bits.length ≤ rest.length + more) :
    readTokens? codes more past bits = some (after, rest) := by
  induction steps generalizing past bits more with
  | zero => cases hr
  | succ steps ih =>
    rw [readTokens?] at hr
    obtain ⟨⟨token, middle⟩, ht, hnext⟩ := Option.bind_eq_some_iff.1 hr
    obtain ⟨front, rfl, hl, -⟩ := frontal_readToken? h _ _ _ ht
    rw [List.length_append] at hm
    cases token with
    | none =>
      obtain ⟨rfl, rfl⟩ := Prod.mk.inj (Option.some.inj hnext)
      obtain ⟨k, rfl⟩ := Nat.exists_eq_add_one_of_ne_zero (show more ≠ 0 by omega)
      rw [readTokens?, ht]
      rfl
    | some token =>
      obtain ⟨next, ho, hrest⟩ := Option.bind_eq_some_iff.1 hnext
      obtain ⟨tail, rfl, -, -⟩ := frontal_readTokens? h steps next _ _ _ hrest
      rw [List.length_append] at hm
      obtain ⟨k, rfl⟩ := Nat.exists_eq_add_one_of_ne_zero (show more ≠ 0 by omega)
      have hk : (tail ++ rest).length ≤ rest.length + k := by
        rw [List.length_append]
        omega
      rw [readTokens?, ht]
      simp only [Option.bind_eq_bind, Option.bind_some, ho]
      exact ih hrest hk

/-- The tokens of a block, in as many steps as there are bits. -/
theorem frontal_tokens {codes : CodePair} {n : Nat} (h : codes.literals.atLeast 1)
    (hn : codes.literals.atLeast n) (past : Bytes) :
    Frontal n fun bits => readTokens? codes bits.length past bits := by
  intro bits after rest hr
  obtain ⟨front, rfl, hl, hf⟩ := frontal_readTokens? hn _ past _ _ _ hr
  refine ⟨front, rfl, hl, fun other ho => readTokens?_of_length_le h (hf other ho) ?_⟩
  rw [List.length_append]
  omega

/-! ## Blocks -/

theorem frontal_readStored? (count : Nat) (past : Bytes) : Frontal 0 (readStored? count past) := by
  induction count generalizing past with
  | zero => exact Frontal.pure past
  | succ count ih =>
    refine Frontal.mono (n := 8 + 0) ?_ (Nat.zero_le _)
    exact (Bits.frontal_read? 8).bind fun byte _ => ih _

theorem frontal_readShortLengths? (order : List Nat) (count : Nat) :
    Frontal 0 (readShortLengths? order count) := by
  induction order generalizing count with
  | nil => exact Frontal.pure []
  | cons symbol order ih =>
    cases count with
    | zero => exact Frontal.pure []
    | succ count =>
      refine Frontal.mono (n := 3 + 0) ?_ (Nat.zero_le _)
      refine (Bits.frontal_read? 3).bind fun length _ => ?_
      refine (ih count).bind (n := 0) fun rest _ => ?_
      exact Frontal.pure _

theorem frontal_readLengths? (tree : Code.Tree) (wanted steps : Nat) (held : List Nat) :
    Frontal 0 (readLengths? tree wanted steps held) := by
  induction steps generalizing held with
  | zero => exact Frontal.none
  | succ steps ih =>
    refine Frontal.ite (fun _ => Frontal.pure _) fun _ => ?_
    refine Frontal.ite (fun _ => Frontal.none) fun _ => ?_
    refine (Code.Tree.frontal_read? tree.atLeast_zero).bind (n := 0) fun symbol _ => ?_
    refine Frontal.ite (fun _ => ih _) fun _ => Frontal.ite (fun _ => ?_) fun _ => ?_
    · refine Frontal.mono (n := 2 + 0) ?_ (Nat.zero_le _)
      refine (Bits.frontal_read? 2).bind fun more _ => ?_
      exact Frontal.option fun last _ => ih _
    · by_cases hs : symbol = 17
      · subst hs
        refine Frontal.mono (n := 3 + 0) ?_ (Nat.zero_le _)
        exact (Bits.frontal_read? 3).bind fun more _ => ih _
      · simp only [if_neg hs]
        refine Frontal.mono (n := 7 + 0) ?_ (Nat.zero_le _)
        exact (Bits.frontal_read? 7).bind fun more _ => ih (List.replicate (more + 11) 0 ++ held)

theorem frontal_readCodes? : Frontal 14 readCodes? := by
  refine (Bits.frontal_read? 5).bind (n := 9) fun literals _ => ?_
  refine (Bits.frontal_read? 5).bind (n := 4) fun distances _ => ?_
  refine (Bits.frontal_read? 4).bind (n := 0) fun short _ => ?_
  refine (frontal_readShortLengths? _ _).bind (n := 0) fun lengths _ => ?_
  refine Frontal.option fun tree _ => ?_
  refine (frontal_readLengths? _ _ _ _).bind (n := 0) fun lengths _ => ?_
  exact Frontal.option fun codes _ => Frontal.pure codes

/-- No code that a block describes has an empty word. -/
theorem atLeast_of_readCodes? {bits rest : Bits} {codes : CodePair}
    (h : readCodes? bits = some (codes, rest)) : codes.literals.atLeast 1 := by
  simp only [readCodes?, Option.bind_eq_bind, Option.bind_eq_some_iff, Option.pure_def] at h
  obtain ⟨_, _, _, _, _, _, _, _, _, _, _, _, found, hc, he⟩ := h
  obtain ⟨rfl, -⟩ := Prod.mk.inj (Option.some.inj he)
  exact atLeast_of_ofLengths? hc

/-- A stored block after its header, from the start of a byte on. -/
def readSized? (past : Bytes) (bits : Bits) : Option (Bytes × Bits) := do
  let (size, bits) ← Bits.read? 16 bits
  let (complement, bits) ← Bits.read? 16 bits
  if size + complement = 65535 then readStored? size past bits else none

/-- What a block holds after its header. -/
def readContent? (past : Bytes) : (kind : Nat) → Bits → Option (Bytes × Bits)
  | 0, bits => readSized? past (Bits.align bits)
  | 1, bits => do readTokens? (← fixedCodes?) bits.length past bits
  | 2, bits => do
    let (codes, bits) ← readCodes? bits
    readTokens? codes bits.length past bits
  | _, _ => none

/-- A block is its header and its content. -/
theorem readBlock?_eq (past : Bytes) (bits : Bits) :
    readBlock? past bits = do
      let (final, bits) ← Bits.read? 1 bits
      let (kind, bits) ← Bits.read? 2 bits
      let (past, bits) ← readContent? past kind bits
      return (final == 1, past, bits) := by
  refine congrArg (Option.bind _) (funext fun ⟨final, bits⟩ => ?_)
  refine congrArg (Option.bind _) (funext fun ⟨kind, bits⟩ => ?_)
  match kind with
  | 0 =>
    show _ = Option.bind (Option.bind _ _) _
    rw [Option.bind_assoc]
    refine congrArg (Option.bind _) (funext fun ⟨size, bits⟩ => ?_)
    show _ = Option.bind (Option.bind _ _) _
    rw [Option.bind_assoc]
    refine congrArg (Option.bind _) (funext fun ⟨complement, bits⟩ => ?_)
    dsimp only
    split <;> rfl
  | 1 => exact (Option.bind_assoc _ _ _).symm
  | 2 => exact (Option.bind_assoc _ _ _).symm
  | kind + 3 => rfl

theorem frontal_readSized? (past : Bytes) : Frontal 32 (readSized? past) := by
  refine (Bits.frontal_read? 16).bind (n := 16) fun size _ => ?_
  refine (Bits.frontal_read? 16).bind (n := 0) fun complement _ => ?_
  exact Frontal.ite (fun _ => frontal_readStored? _ _) fun _ => Frontal.none

theorem frontal_readContent? (past : Bytes) (kind : Nat) : Frontal 7 (readContent? past kind) := by
  match kind with
  | 0 => exact (frontal_readSized? past).align.mono (by decide)
  | 1 =>
    refine Frontal.option fun codes hc => ?_
    obtain rfl : fixedCodes = codes := Option.some.inj (fixedCodes?_eq.symm.trans hc)
    exact frontal_tokens (atLeast_of_ofLengths? fixedCodes?_eq) atLeast_fixedCodes past
  | 2 =>
    refine Frontal.mono (n := 14 + 1) ?_ (by decide)
    refine frontal_readCodes?.bind fun codes hc => ?_
    obtain ⟨bits, rest, hc⟩ := hc
    exact frontal_tokens (atLeast_of_readCodes? hc) (atLeast_of_readCodes? hc) past
  | kind + 3 => exact Frontal.none

/-- A block that is read takes ten bits at least, and before any other bits that end a
byte at the same place it is read as the same block. -/
theorem readBlock?_front {past after : Bytes} {bits rest : Bits} {final : Bool}
    (h : readBlock? past bits = some (final, after, rest)) :
    ∃ front, bits = front ++ rest ∧ 10 ≤ front.length ∧
      ∀ other : Bits, other.length % 8 = rest.length % 8 →
        readBlock? past (front ++ other) = some (final, after, other) := by
  have hfrontal : Frontal 10 fun bits =>
      (readBlock? past bits).map fun block => ((block.1, block.2.1), block.2.2) := by
    simp only [readBlock?_eq, Option.bind_eq_bind, Option.map_bind, Function.comp_def,
      Option.pure_def, Option.map_some]
    refine (Bits.frontal_read? 1).bind (n := 9) fun final _ => ?_
    dsimp only
    refine (Bits.frontal_read? 2).bind (n := 7) fun kind _ => ?_
    dsimp only
    refine (frontal_readContent? past kind).bind (n := 0) fun past _ => ?_
    exact Frontal.pure (final == 1, past)
  have hassoc : Function.Injective fun block : Bool × Bytes × Bits =>
      ((block.1, block.2.1), block.2.2) := by
    rintro ⟨a, b, c⟩ ⟨a', b', c'⟩ he
    simp_all
  obtain ⟨front, hb, hl, hf⟩ := hfrontal bits (final, after) rest (by simp only [h, Option.map_some])
  exact ⟨front, hb, hl, fun other ho => Option.map_injective hassoc (hf other ho)⟩

end SpanMetrics.Deflate
