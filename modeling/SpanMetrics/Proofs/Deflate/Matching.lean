import SpanMetrics.Deflate.Matching
import SpanMetrics.Proofs.Deflate.Token

/-!
# Repetitions stand for what they repeat

The tokens of a content expand to the content. A search only finds earlier
positions whose continuation shares a beginning with what stands here; copying
back such a beginning appends it, also where the run reaches into itself. The scan
keeps in step with the content: at each position what was written, or is still
owed, is what came before.
-/
namespace SpanMetrics.Deflate

theorem sharedLength_spec (limit : Nat) (earlier here : Bytes) :
    sharedLength limit earlier here ≤ limit ∧
      sharedLength limit earlier here ≤ here.length ∧
      earlier.take (sharedLength limit earlier here) =
        here.take (sharedLength limit earlier here) := by
  fun_induction sharedLength limit earlier here with
  | case1 limit a as bs ih =>
    obtain ⟨hl, hh, he⟩ := ih
    refine ⟨Nat.succ_le_succ hl, Nat.succ_le_succ hh, ?_⟩
    rw [List.take_succ_cons, List.take_succ_cons, he]
  | case2 limit a as b bs hne => exact ⟨Nat.zero_le _, Nat.zero_le _, rfl⟩
  | case3 => exact ⟨Nat.zero_le _, Nat.zero_le _, rfl⟩

/-- A run that repeats what stands at a distance is appended by copying it back. -/
theorem copyBack?_of_take_eq {distance length : Nat} {past here : Bytes} (hd : 1 ≤ distance)
    (hp : distance ≤ past.length) (hh : length ≤ here.length)
    (h : ((past.take distance).reverse ++ here).take length = here.take length) :
    copyBack? length distance past = some ((here.take length).reverse ++ past) := by
  induction length generalizing past here with
  | zero => rfl
  | succ length ih =>
    cases here with
    | nil => simp at hh
    | cons byte here =>
      obtain ⟨d, rfl⟩ := Nat.exists_eq_add_of_le' hd
      have hlt : d < past.length := hp
      have ht : (past.take (d + 1)).reverse = past[d] :: (past.take d).reverse := by
        rw [List.take_succ_eq_append_getElem hlt, List.reverse_append]
        rfl
      rw [ht, List.cons_append, List.take_succ_cons, List.take_succ_cons] at h
      obtain ⟨hb, hrest⟩ := List.cons.inj h
      -- the byte that was copied is the first one that the rest of the run repeats
      have hstep : ((byte :: past).take (d + 1)).reverse ++ here =
          (past.take d).reverse ++ byte :: here := by
        rw [List.take_succ_cons, List.reverse_cons, List.append_assoc]
        rfl
      have hlen : d + 1 ≤ (byte :: past).length := Nat.le_succ_of_le hp
      have hi := ih hlen (Nat.le_of_succ_le_succ hh) (by rw [hstep]; exact hrest)
      rw [copyBack?, if_neg (Nat.succ_ne_zero d), Nat.add_sub_cancel,
        List.getElem?_eq_getElem hlt, hb]
      simp only [Option.bind_eq_bind, Option.bind_some, hi, List.take_succ_cons, List.reverse_cons,
        List.append_assoc]
      rfl

namespace Repetition

/-- The beginning of `here` stands at the repetition's distance as well, and the
repetition is within the limits of the format. -/
structure Repeats (r : Repetition) (past here : Bytes) : Prop where
  least : 3 ≤ r.length
  most : r.length ≤ longestCopy
  near : 1 ≤ r.distance
  far : r.distance ≤ window
  inside : r.distance ≤ past.length
  covered : r.length ≤ here.length
  same : ((past.take r.distance).reverse ++ here).take r.length = here.take r.length

theorem Repeats.onto? {r : Repetition} {past here : Bytes} (h : r.Repeats past here) :
    (Token.copy r.length r.distance).onto? past = some ((here.take r.length).reverse ++ past) :=
  copyBack?_of_take_eq h.near h.inside h.covered h.same

theorem Repeats.inRange {r : Repetition} {past here : Bytes} (h : r.Repeats past here) :
    (Token.copy r.length r.distance).InRange := ⟨h.least, h.most, h.near, h.far⟩

end Repetition

/-- The earlier positions hold what follows them, the nearest first. -/
def Follows (past here : Bytes) (earlier : List Bytes) : Prop :=
  ∀ i e, earlier[i]? = some e → i < past.length ∧ e = (past.take (i + 1)).reverse ++ here

theorem Follows.cons {past here : Bytes} {byte : UInt8} {earlier : List Bytes}
    (h : Follows past (byte :: here) earlier) :
    Follows (byte :: past) here ((byte :: here) :: earlier) := by
  intro i e he
  cases i with
  | zero =>
    obtain rfl := Option.some.inj he
    exact ⟨Nat.succ_pos _, rfl⟩
  | succ i =>
    obtain ⟨hlt, rfl⟩ := h i e he
    refine ⟨Nat.succ_lt_succ hlt, ?_⟩
    rw [List.take_succ_cons, List.reverse_cons, List.append_assoc]
    rfl

/-- What a search returns was found before, or is longer than all that was found
before and stands at one of the positions. -/
theorem searchFrom_spec {here : Bytes} {earlier rest : List Bytes} {distance best : Nat}
    {found : Option Repetition} {r : Repetition}
    (h : searchFrom here distance best found rest = some r) (hd : 1 ≤ distance)
    (hr : ∀ i, rest[i]? = earlier[distance - 1 + i]?) :
    found = some r ∨ best < r.length ∧ 1 ≤ r.distance ∧ r.distance ≤ window ∧
      ∃ e, earlier[r.distance - 1]? = some e ∧ r.length = sharedLength longestCopy e here := by
  induction rest generalizing distance best found with
  | nil => exact .inl h
  | cons e rest ih =>
    have htail : ∀ i, rest[i]? = earlier[distance + 1 - 1 + i]? := by
      intro i
      have hi := hr (i + 1)
      rw [List.getElem?_cons_succ] at hi
      rw [hi]
      congr 1
      omega
    have hhead : earlier[distance - 1]? = some e := (hr 0).symm
    rw [searchFrom] at h
    split at h
    · exact .inl h
    · next hstop =>
      rw [not_or, Nat.not_lt, Nat.not_le] at hstop
      dsimp only at h
      split at h
      · next hlonger =>
        rcases ih h (Nat.le_add_left _ _) htail with hf | ⟨hb, hrest⟩
        · obtain rfl := Option.some.inj hf
          exact .inr ⟨hlonger, hd, hstop.1, e, hhead, rfl⟩
        · exact .inr ⟨lt_trans hlonger hb, hrest⟩
      · exact ih h (Nat.le_add_left _ _) htail

/-- What is found here repeats an earlier run. -/
theorem Follows.repeats {past here : Bytes} {earlier : List Bytes} (h : Follows past here earlier)
    {best : Nat} (hb : 2 ≤ best) {r : Repetition} (hr : findRepetition earlier here best = some r) :
    r.Repeats past here := by
  have hs := searchFrom_spec hr le_rfl (fun i => congrArg (earlier[·]?) (Nat.zero_add i).symm)
  obtain ⟨hlen, hnear, hfar, e, he, hl⟩ := hs.resolve_left (by simp)
  obtain ⟨hin, rfl⟩ := h _ _ he
  obtain ⟨hmost, hcov, hsame⟩ := sharedLength_spec longestCopy _ here
  rw [← hl] at hmost hcov hsame
  have hd : r.distance - 1 + 1 = r.distance := Nat.sub_add_cancel hnear
  rw [hd] at hsame
  exact ⟨by omega, hmost, hnear, hfar, by omega, hcov, hsame⟩

/-- What is written when the scan comes to a position: everything before it, with
the covered bytes of a run and without a byte that is held back. -/
def Pending.Written : Pending → (past here written : Bytes) → Prop
  | .nothing, past, _, written => written = past
  | .covered count, past, here, written =>
    count ≤ here.length ∧ written = (here.take count).reverse ++ past
  | .held byte r, past, here, written =>
    past = byte :: written ∧ r.Repeats written (byte :: here)

theorem Pending.Written.eq {pending : Pending} {past here written : Bytes}
    (h : pending.Written past here written)
    (hc : ∀ count, pending = .covered (Nat.succ count) → False)
    (hh : ∀ byte r, pending = .held byte r → False) : written = past := by
  cases pending with
  | nothing => exact h
  | held byte r => exact absurd rfl (hh byte r)
  | covered count =>
    cases count with
    | zero => exact h.2
    | succ count => exact absurd rfl (hc count)

/-- The scan writes the rest of the content. -/
theorem writes_scan {past here written : Bytes} {earlier : List Bytes} {pending : Pending}
    (hf : Follows past here earlier) (hw : pending.Written past here written) :
    Writes (scan earlier pending here) written (here.reverse ++ past) := by
  fun_induction scan earlier pending here generalizing past written with
  | case1 earlier before r =>
    -- a run of three bytes does not fit where one byte is left
    have hl := hw.2.least
    have hc : r.length ≤ 1 := hw.2.covered
    omega
  | case2 earlier pending hne =>
    have he : written = past := by
      cases pending with
      | nothing => exact hw
      | held byte r => exact absurd rfl (hne byte r)
      | covered count =>
        obtain ⟨hc, rfl⟩ := hw
        rw [Nat.le_zero.1 hc]
        rfl
    rw [he]
    exact writes_nil past
  | case3 earlier count byte rest ih =>
    obtain ⟨hc, rfl⟩ := hw
    rw [List.reverse_cons, List.append_assoc]
    refine ih hf.cons ⟨Nat.le_of_succ_le_succ hc, ?_⟩
    rw [List.take_succ_cons, List.reverse_cons, List.append_assoc, List.singleton_append]
  | case4 earlier before r byte rest longer hfind ih =>
    obtain ⟨rfl, hr⟩ := hw
    have hl : 2 ≤ r.length := Nat.le_of_succ_le hr.least
    rw [List.reverse_cons, List.append_assoc]
    exact (ih hf.cons ⟨rfl, hf.repeats hl hfind⟩).cons trivial rfl
  | case5 earlier before r byte rest hfind ih =>
    obtain ⟨rfl, hr⟩ := hw
    obtain ⟨k, hk⟩ := Nat.exists_eq_add_of_le' hr.least
    have hc : k + 1 ≤ rest.length := by
      have hcov := hr.covered
      rw [hk, List.length_cons, List.length_cons] at hcov
      omega
    have hk2 : r.length - 2 = k + 1 := by omega
    rw [hk2] at ih ⊢
    rw [List.reverse_cons, List.append_assoc]
    refine (ih hf.cons ⟨hc, rfl⟩).cons hr.inRange ?_
    rw [hr.onto?, hk, List.take_succ_cons, List.take_succ_cons, List.reverse_cons,
      List.reverse_cons, List.append_assoc, List.append_assoc]
    rfl
  | case6 earlier pending byte rest hc hh longer hfind ih =>
    obtain rfl := hw.eq hc hh
    rw [List.reverse_cons, List.append_assoc]
    exact ih hf.cons ⟨rfl, hf.repeats le_rfl hfind⟩
  | case7 earlier pending byte rest hc hh hfind ih =>
    obtain rfl := hw.eq hc hh
    rw [List.reverse_cons, List.append_assoc]
    exact (ih hf.cons rfl).cons trivial rfl

/-- The tokens of a content write the content. -/
theorem writes_tokens (content : Bytes) : Writes (tokens content) [] content.reverse := by
  cases content with
  | nil => exact writes_nil []
  | cons byte rest =>
    have hf : Follows [byte] rest [] := fun i e he => absurd he (by simp)
    have hw : Pending.nothing.Written [byte] rest [byte] := rfl
    rw [List.reverse_cons]
    exact (writes_scan hf hw).cons trivial rfl

end SpanMetrics.Deflate
