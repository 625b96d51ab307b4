import Mathlib
import SpanMetrics.Text.Lines
import SpanMetrics.Text.Search

/-!
# Pieces of a text

Cutting a text at a separator gives the stretches without the separator that have it,
or an end of the text, on both sides. The lines of a text are such pieces between
line feeds, less the carriage return that belongs to a line feed.
-/
namespace SpanMetrics

/-! ## Joined pieces -/

variable {α : Type} {sep : α}

theorem intercalate_append {pieces others : List (List α)} (hp : pieces ≠ []) (ho : others ≠ []) :
    [sep].intercalate (pieces ++ others) =
      [sep].intercalate pieces ++ sep :: [sep].intercalate others := by
  induction pieces with
  | nil => exact absurd rfl hp
  | cons piece pieces ih =>
    by_cases hnil : pieces = []
    · rw [hnil, List.singleton_append, List.intercalate_cons_of_ne_nil ho,
        List.intercalate_singleton, List.append_assoc, List.singleton_append]
    · have hne : pieces ++ others ≠ [] := List.append_ne_nil_of_left_ne_nil hnil _
      rw [List.cons_append, List.intercalate_cons_of_ne_nil hne, ih hnil,
        List.intercalate_cons_of_ne_nil hnil, List.append_assoc, List.append_assoc,
        List.append_assoc]

/-- What stands before a piece: nothing, or a text that a separator ends. -/
def Opens (sep : α) (before : List α) : Prop :=
  before = [] ∨ ∃ earlier, before = earlier ++ [sep]

/-- What stands behind a piece: nothing, or a text that a separator begins. -/
def Closes (sep : α) (after : List α) : Prop :=
  after = [] ∨ ∃ later, after = sep :: later

theorem exists_opens (sep : α) (pieces : List (List α)) (others : List (List α)) (ho : others ≠ []) :
    ∃ before, Opens sep before ∧
      [sep].intercalate (pieces ++ others) = before ++ [sep].intercalate others := by
  by_cases hp : pieces = []
  · exact ⟨[], .inl rfl, by rw [hp, List.nil_append, List.nil_append]⟩
  · refine ⟨[sep].intercalate pieces ++ [sep], .inr ⟨_, rfl⟩, ?_⟩
    rw [intercalate_append hp ho, List.append_assoc, List.singleton_append]

/-! ## Cut pieces -/

variable [DecidableEq α]

theorem not_mem_of_mem_splitOn {text piece : List α} (h : piece ∈ text.splitOn sep) :
    sep ∉ piece := by
  induction text generalizing piece with
  | nil =>
    obtain rfl := List.mem_singleton.1 h
    exact List.not_mem_nil
  | cons c rest ih =>
    rw [List.splitOn_cons_eq_if_modifyHead] at h
    obtain ⟨first, others, hsplit⟩ := List.exists_cons_of_ne_nil (List.splitOn_ne_nil sep rest)
    have hfirst : sep ∉ first := ih (hsplit ▸ List.mem_cons_self)
    have hothers : ∀ other ∈ others, sep ∉ other := fun other ho =>
      ih (hsplit ▸ List.mem_cons_of_mem _ ho)
    split at h
    · rcases List.mem_cons.1 h with rfl | h
      · exact List.not_mem_nil
      · exact ih h
    · next hc =>
      rw [hsplit, List.modifyHead_cons] at h
      rcases List.mem_cons.1 h with rfl | h
      · intro hm
        rcases List.mem_cons.1 hm with rfl | hm
        · exact hc (beq_self_eq_true _)
        · exact hfirst hm
      · exact hothers piece h

/-- The pieces before a place that a separator ends have no part in those behind it. -/
theorem splitOn_opens {before : List α} (h : Opens sep before) (rest : List α) :
    ∃ pieces, (before ++ rest).splitOn sep = pieces ++ rest.splitOn sep := by
  rcases h with rfl | ⟨earlier, rfl⟩
  · exact ⟨[], rfl⟩
  · refine ⟨earlier.splitOn sep, ?_⟩
    rw [List.append_assoc, List.singleton_append, List.splitOn_append_cons_self]

/-- The last piece begins behind the last separator and ends with the text. -/
theorem getLast?_splitOn_eq_some_iff {text piece : List α} :
    (text.splitOn sep).getLast? = some piece ↔
      sep ∉ piece ∧ ∃ before, Opens sep before ∧ text = before ++ piece := by
  constructor
  · intro h
    obtain ⟨pieces, hp⟩ := List.getLast?_eq_some_iff.1 h
    refine ⟨not_mem_of_mem_splitOn (List.mem_of_getLast? h), ?_⟩
    obtain ⟨before, hb, he⟩ := exists_opens sep pieces [piece] (List.cons_ne_nil _ _)
    have hjoin : [sep].intercalate (text.splitOn sep) = text := List.intercalate_splitOn sep
    refine ⟨before, hb, ?_⟩
    rw [← hjoin, hp, he, List.intercalate_singleton]
  · intro ⟨hn, before, hb, he⟩
    obtain ⟨pieces, hp⟩ := splitOn_opens hb piece
    rw [he, hp, List.splitOn_eq_singleton hn, List.getLast?_append_of_ne_nil]
    · rfl
    · exact List.cons_ne_nil _ _

/-- Any other piece is one that a separator ends. -/
theorem mem_dropLast_splitOn_iff {text piece : List α} :
    piece ∈ (text.splitOn sep).dropLast ↔
      sep ∉ piece ∧ ∃ before after, Opens sep before ∧ text = before ++ piece ++ sep :: after := by
  constructor
  · intro h
    refine ⟨not_mem_of_mem_splitOn (List.mem_of_mem_dropLast h), ?_⟩
    obtain ⟨pieces, others, hp⟩ := List.append_of_mem h
    obtain ⟨last, hl⟩ : ∃ last, text.splitOn sep = pieces ++ piece :: (others ++ [last]) := by
      refine ⟨(text.splitOn sep).getLast (List.splitOn_ne_nil _ _), ?_⟩
      rw [← List.cons_append, ← List.append_assoc, ← hp, List.dropLast_append_getLast]
    have ho : others ++ [last] ≠ [] := List.append_ne_nil_of_right_ne_nil _ (List.cons_ne_nil _ _)
    obtain ⟨before, hb, he⟩ := exists_opens sep pieces (piece :: (others ++ [last]))
      (List.cons_ne_nil _ _)
    have hjoin : [sep].intercalate (text.splitOn sep) = text := List.intercalate_splitOn sep
    refine ⟨before, [sep].intercalate (others ++ [last]), hb, ?_⟩
    rw [← hjoin, hl, he, List.intercalate_cons_of_ne_nil ho, List.append_assoc,
      List.append_assoc, List.singleton_append]
  · intro ⟨hn, before, after, hb, he⟩
    obtain ⟨pieces, hp⟩ := splitOn_opens hb (piece ++ sep :: after)
    rw [he, List.append_assoc, hp, List.splitOn_append_cons_self_of_not_mem hn,
      List.dropLast_append_of_ne_nil (List.cons_ne_nil _ _),
      List.dropLast_cons_of_ne_nil (List.splitOn_ne_nil _ _)]
    exact List.mem_append_right _ List.mem_cons_self

theorem mem_splitOn_iff {text piece : List α} :
    piece ∈ text.splitOn sep ↔
      sep ∉ piece ∧ ∃ before after, Opens sep before ∧ Closes sep after ∧
        text = before ++ piece ++ after := by
  have hparts : piece ∈ text.splitOn sep ↔
      piece ∈ (text.splitOn sep).dropLast ∨ (text.splitOn sep).getLast? = some piece := by
    have hne := List.splitOn_ne_nil sep text
    conv_lhs => rw [← List.dropLast_append_getLast hne]
    rw [List.mem_append, List.mem_singleton, List.getLast?_eq_some_getLast hne,
      Option.some_inj, eq_comm]
  rw [hparts, mem_dropLast_splitOn_iff, getLast?_splitOn_eq_some_iff]
  constructor
  · intro h
    rcases h with ⟨hn, before, after, hb, rfl⟩ | ⟨hn, before, hb, rfl⟩
    · exact ⟨hn, before, sep :: after, hb, .inr ⟨after, rfl⟩, rfl⟩
    · exact ⟨hn, before, [], hb, .inl rfl, (List.append_nil _).symm⟩
  · intro ⟨hn, before, after, hb, ha, he⟩
    subst he
    rcases ha with rfl | ⟨later, rfl⟩
    · exact .inr ⟨hn, before, hb, List.append_nil _⟩
    · exact .inl ⟨hn, before, later, hb, rfl⟩

namespace Text

/-! ## Parts and occurrences -/

theorem occursIn_iff (needle text : List Char) : occursIn needle text ↔ needle <:+: text := by
  induction text with
  | nil => rw [occursIn, List.isEmpty_iff, List.infix_nil]
  | cons c rest ih =>
    rw [occursIn, Bool.or_eq_true, List.isPrefixOf_iff_prefix, ih, List.infix_cons_iff]

theorem holds_iff {s needle : String} : holds s needle ↔ needle.toList <:+: s.toList :=
  occursIn_iff _ _

/-- A part of a text: it stands between two occurrences of a character, or between one and
an end of the text, and the character does not occur in it. -/
def Part (c : Char) (s part : String) : Prop :=
  c ∉ part.toList ∧ ∃ before after, Opens c before ∧ Closes c after ∧
    s.toList = before ++ part.toList ++ after

theorem mem_map_ofList_iff {pieces : List (List Char)} {s : String} :
    s ∈ pieces.map .ofList ↔ s.toList ∈ pieces := by
  rw [List.mem_map]
  constructor
  · intro ⟨piece, hp, he⟩
    rwa [← he, String.toList_ofList]
  · intro h
    exact ⟨_, h, String.ofList_toList⟩

theorem mem_splitAt_iff {c : Char} {s part : String} : part ∈ splitAt c s ↔ Part c s part := by
  rw [splitAt, mem_map_ofList_iff, mem_splitOn_iff, Part]

/-- The last part of a text: it stands behind the last occurrence of a character, or is the
whole text if the character does not occur. -/
def LastPart (c : Char) (s part : String) : Prop :=
  c ∉ part.toList ∧ ∃ before, Opens c before ∧ s.toList = before ++ part.toList

theorem afterLast_eq_iff {c : Char} {s part : String} :
    afterLast c s = part ↔ LastPart c s part := by
  rw [afterLast, ← String.toList_inj, String.toList_ofList, List.reverse_eq_iff]
  constructor
  · intro h
    refine ⟨fun hc => ?_, (s.toList.reverse.dropWhile (· != c)).reverse, ?_, ?_⟩
    · rw [← List.mem_reverse, ← h] at hc
      simpa using List.mem_takeWhile_imp hc
    · cases hrest : s.toList.reverse.dropWhile (· != c) with
      | nil => exact .inl rfl
      | cons d rest =>
        have hd := List.head?_dropWhile_not (· != c) s.toList.reverse
        rw [hrest] at hd
        obtain rfl : d = c := by simpa using hd
        exact .inr ⟨rest.reverse, List.reverse_cons⟩
    · rw [← List.reverse_inj, List.reverse_append, List.reverse_reverse, ← h,
        List.takeWhile_append_dropWhile]
  · intro ⟨hn, before, hb, he⟩
    have hpart : ∀ d ∈ part.toList.reverse, (d != c) = true := fun d hd =>
      bne_iff_ne.2 fun hdc => hn (hdc ▸ List.mem_reverse.1 hd)
    rw [he, List.reverse_append, List.takeWhile_append_of_pos hpart]
    rcases hb with rfl | ⟨earlier, rfl⟩
    · rw [List.reverse_nil, List.takeWhile_nil, List.append_nil]
    · rw [List.reverse_concat, List.takeWhile_cons_of_neg (by simp), List.append_nil]

/-! ## Lines -/

/-- A line of a text begins the text or stands behind a line feed, and no line feed occurs
in it. Either a line feed ends it, with a carriage return right before that or not, or the
text ends with it and it is not empty. -/
def Line (s line : String) : Prop :=
  '\n' ∉ line.toList ∧ ∃ before, Opens '\n' before ∧
    ((∃ after, s.toList = before ++ line.toList ++ '\r' :: '\n' :: after) ∨
      (line.toList.getLast? ≠ some '\r' ∧
        ∃ after, s.toList = before ++ line.toList ++ '\n' :: after) ∨
      (line ≠ "" ∧ s.toList = before ++ line.toList))

theorem withoutReturn_eq_iff {ret : α} {closed line : List α} :
    withoutReturn ret closed = line ↔
      closed = line ++ [ret] ∨ line.getLast? ≠ some ret ∧ closed = line := by
  rw [withoutReturn]
  split
  · next h =>
    obtain ⟨front, rfl⟩ := List.getLast?_eq_some_iff.1 (eq_of_beq h)
    rw [List.dropLast_concat]
    refine ⟨fun h => .inl (by rw [h]), fun h => ?_⟩
    rcases h with h | ⟨hl, rfl⟩
    · exact List.append_cancel_right h
    · exact absurd List.getLast?_concat hl
  · next h =>
    refine ⟨fun he => .inr ⟨fun hl => h (beq_iff_eq.2 (he ▸ hl)), he⟩, fun he => ?_⟩
    rcases he with rfl | ⟨-, rfl⟩
    · exact absurd (beq_iff_eq.2 List.getLast?_concat) h
    · rfl

/-- The lines over any alphabet, said of the text. -/
theorem mem_linesWith_iff {feed ret : α} (hne : ret ≠ feed) {text line : List α} :
    line ∈ linesWith feed ret text ↔
      feed ∉ line ∧ ∃ before, Opens feed before ∧
        ((∃ after, text = before ++ line ++ ret :: feed :: after) ∨
          (line.getLast? ≠ some ret ∧ ∃ after, text = before ++ line ++ feed :: after) ∨
          (line ≠ [] ∧ text = before ++ line)) := by
  have hparts : line ∈ linesWith feed ret text ↔
      (∃ closed ∈ (text.splitOn feed).dropLast, withoutReturn ret closed = line) ∨
        line ≠ [] ∧ (text.splitOn feed).getLast? = some line := by
    obtain ⟨last, hlast⟩ : ∃ last, (text.splitOn feed).getLast? = some last :=
      ⟨_, List.getLast?_eq_some_getLast (List.splitOn_ne_nil feed text)⟩
    rw [linesWith, List.mem_append, List.mem_map, hlast, Option.getD_some, Option.some_inj]
    refine or_congr_right ?_
    split
    · next h =>
      rw [List.isEmpty_iff] at h
      exact iff_of_false List.not_mem_nil fun hl => hl.1 (hl.2 ▸ h)
    · next h =>
      rw [List.isEmpty_iff] at h
      rw [List.mem_singleton]
      exact ⟨fun hl => ⟨hl ▸ h, hl.symm⟩, fun hl => hl.2.symm⟩
  rw [hparts, getLast?_splitOn_eq_some_iff]
  constructor
  · intro h
    rcases h with ⟨closed, hc, hr⟩ | ⟨hl, hn, before, hb, he⟩
    · obtain ⟨hn, before, after, hb, he⟩ := mem_dropLast_splitOn_iff.1 hc
      rcases withoutReturn_eq_iff.1 hr with rfl | ⟨hl, rfl⟩
      · refine ⟨fun hm => hn (List.mem_append_left _ hm), before, hb, .inl ⟨after, ?_⟩⟩
        rw [he]
        simp
      · exact ⟨hn, before, hb, .inr (.inl ⟨hl, after, he⟩)⟩
    · exact ⟨hn, before, hb, .inr (.inr ⟨hl, he⟩)⟩
  · intro ⟨hn, before, hb, h⟩
    rcases h with ⟨after, he⟩ | ⟨hl, after, he⟩ | ⟨hl, he⟩
    · refine .inl ⟨line ++ [ret], mem_dropLast_splitOn_iff.2 ⟨?_, before, after, hb, ?_⟩,
        withoutReturn_eq_iff.2 (.inl rfl)⟩
      · intro hm
        rcases List.mem_append.1 hm with hm | hm
        · exact hn hm
        · exact hne (List.mem_singleton.1 hm).symm
      · rw [he]
        simp
    · exact .inl ⟨line, mem_dropLast_splitOn_iff.2 ⟨hn, before, after, hb, he⟩,
        withoutReturn_eq_iff.2 (.inr ⟨hl, rfl⟩)⟩
    · exact .inr ⟨hl, hn, before, hb, he⟩

theorem mem_lines_iff {s line : String} : line ∈ lines s ↔ Line s line := by
  rw [lines, mem_map_ofList_iff, mem_linesWith_iff (by decide), ne_eq line.toList,
    String.toList_eq_nil_iff]
  rfl

/-! ## Lines one after the other -/

theorem linesWith_of_not_mem {feed ret : α} {text : List α} (h : feed ∉ text) (hne : text ≠ []) :
    linesWith feed ret text = [text] := by
  rw [linesWith, List.splitOn_eq_singleton h]
  have hempty : text.isEmpty = false := List.isEmpty_eq_false_iff.2 hne
  simp [hempty]

theorem linesWith_append_cons {feed ret : α} {first : List α} (h : feed ∉ first)
    (rest : List α) :
    linesWith feed ret (first ++ feed :: rest) =
      withoutReturn ret first :: linesWith feed ret rest := by
  have hne := List.splitOn_ne_nil feed rest
  rw [linesWith, List.splitOn_append_cons_self_of_not_mem h, List.dropLast_cons_of_ne_nil hne,
    List.map_cons, List.cons_append, List.getLast?_cons_of_ne_nil hne]
  rfl

/-- The first lines are the lines of some bytes at the front, and what stands behind these
has no part in them, unless they go on to the end. -/
theorem exists_used_of_linesWith {feed ret : α} {text : List α} {read later : List (List α)}
    (h : linesWith feed ret text = read ++ later) :
    ∃ used rest, text = used ++ rest ∧ linesWith feed ret used = read ∧
      (rest = [] ∨ ∀ other, linesWith feed ret (used ++ other) =
        read ++ linesWith feed ret other) := by
  induction read generalizing text with
  | nil => exact ⟨[], text, rfl, rfl, .inr fun _ => rfl⟩
  | cons line read ih =>
    by_cases hfeed : feed ∈ text
    · obtain ⟨first, behind, rfl, hfirst⟩ := List.eq_append_cons_of_mem hfeed
      rw [linesWith_append_cons hfirst, List.cons_append, List.cons.injEq] at h
      obtain ⟨used, rest, rfl, hused, hother⟩ := ih h.2
      refine ⟨first ++ feed :: used, rest, by simp, ?_, hother.imp_right fun hother other => ?_⟩
      · rw [linesWith_append_cons hfirst, hused, h.1]
      · rw [List.append_assoc, List.cons_append, linesWith_append_cons hfirst, hother, h.1,
          List.cons_append]
    · have hne : text ≠ [] := by
        rintro rfl
        cases h
      rw [linesWith_of_not_mem hfeed hne, List.cons_append, List.cons.injEq] at h
      obtain ⟨hread, -⟩ := List.append_eq_nil_iff.1 h.2.symm
      refine ⟨text, [], (List.append_nil _).symm, ?_, .inl rfl⟩
      rw [linesWith_of_not_mem hfeed hne, h.1, hread]

end Text
end SpanMetrics
