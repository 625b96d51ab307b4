import SpanMetrics.Host.Distro
import SpanMetrics.Proofs.Text.Pieces
import SpanMetrics.Proofs.Text.Reading

/-!
# The description of a distribution

A release file of settings gives the description of a distribution between quotes, behind
an equals sign. What is reported begins behind the last equals sign of that line, so a
description comes out whole exactly if it has no equals sign of its own. Of any other one
only its end is reported, and if nothing stands behind its last equals sign then the
distribution counts as one without a description.
-/
namespace SpanMetrics.Host.Distro

open Text (LastPart Trims)

/-! ## Lines that are read -/

/-- Of the lines of a file, each taken between the blanks at its ends, this is the first one
with the keyword, and the lines up to it are text. -/
def FirstWith (keyword : String) (f : File) (line : String) : Prop :=
  ∃ bytes before raw, f = .content bytes ∧
    (before ++ [raw]).map some <+: Text.byteLines bytes ∧
    Trims raw line ∧ keyword.toList <:+: line.toList ∧
    ∀ other ∈ before, ∀ core, Trims other core → ¬ keyword.toList <:+: core.toList

theorem prefix_filterMap_takeWhile_iff {α : Type} {read : List α} {lines : List (Option α)} :
    read <+: (lines.takeWhile Option.isSome).filterMap id ↔ read.map some <+: lines := by
  induction read generalizing lines with
  | nil => exact iff_of_true List.nil_prefix List.nil_prefix
  | cons line read ih =>
    cases lines with
    | nil => simp
    | cons first rest =>
      cases first with
      | none => simp
      | some other =>
        rw [List.takeWhile_cons_of_pos (Option.isSome_some), List.filterMap_cons_some (id_eq _),
          List.map_cons, List.cons_prefix_cons, List.cons_prefix_cons, ih, Option.some_inj]

/-- The readable lines of a file begin with some lines exactly if its content does. -/
theorem prefix_readableLines_iff {f : File} {read : List String} (hne : read ≠ []) :
    read <+: f.readableLines ↔
      ∃ bytes, f = .content bytes ∧ read.map some <+: Text.byteLines bytes := by
  cases f with
  | content bytes =>
    refine prefix_filterMap_takeWhile_iff.trans ⟨fun h => ⟨bytes, rfl, h⟩, ?_⟩
    intro ⟨others, he, h⟩
    rwa [File.content.inj he]
  | absent =>
    exact iff_of_false (fun h => hne (List.prefix_nil.1 h)) fun ⟨_, h, _⟩ => nomatch h
  | directory =>
    exact iff_of_false (fun h => hne (List.prefix_nil.1 h)) fun ⟨_, h, _⟩ => nomatch h

theorem lineWith?_eq_some_iff {keyword : String} (hkeyword : keyword ≠ "") {f : File}
    {line : String} : lineWith? f keyword = some line ↔ FirstWith keyword f line := by
  have hholds : ∀ line, (line ≠ "" && Text.holds line keyword) = true ↔
      keyword.toList <:+: line.toList := by
    intro line
    rw [Bool.and_eq_true, decide_eq_true_eq, Text.holds_iff, and_iff_right_iff_imp]
    rintro h rfl
    exact hkeyword (String.toList_eq_nil_iff.1 (List.infix_nil.1 h))
  rw [lineWith?, List.find?_map, Option.map_eq_some_iff]
  simp only [List.find?_eq_some_iff_append, Function.comp_apply, hholds, Bool.not_eq_true',
    ← Bool.not_eq_true]
  constructor
  · rintro ⟨raw, ⟨hin, before, after, hlines, hbefore⟩, rfl⟩
    have hread : before ++ [raw] <+: f.readableLines := ⟨after, by rw [hlines]; simp⟩
    obtain ⟨bytes, hf, hbytes⟩ := (prefix_readableLines_iff (by simp)).1 hread
    refine ⟨bytes, before, raw, hf, hbytes, Text.trim_eq_iff.1 rfl, hin, ?_⟩
    intro other ho core hcore
    rw [← Text.trim_eq_iff.2 hcore]
    exact hbefore other ho
  · intro ⟨bytes, before, raw, hf, hbytes, hraw, hin, hbefore⟩
    obtain ⟨after, hlines⟩ := (prefix_readableLines_iff (by simp)).2 ⟨bytes, hf, hbytes⟩
    rw [← Text.trim_eq_iff] at hraw
    refine ⟨raw, ⟨hraw ▸ hin, before, after, ?_, fun other ho => ?_⟩, hraw⟩
    · rw [← hlines]
      simp
    · exact hbefore other ho _ (Text.trim_eq_iff.1 rfl)

theorem lineWith?_eq_none {f : File} (h : ∀ bytes, f ≠ .content bytes) (keyword : String) :
    lineWith? f keyword = none := by
  cases f with
  | content bytes => exact absurd rfl (h bytes)
  | absent => rfl
  | directory => rfl

/-! ## Settings -/

/-- The line that gives a setting its value, which stands between quotes. -/
def setting (key value : String) : String := key ++ "=\"" ++ value ++ "\""

theorem toList_setting (key value : String) :
    (setting key value).toList = key.toList ++ ['=', '"'] ++ value.toList ++ ['"'] := by
  rw [setting]
  simp only [String.toList_append]
  rfl

/-- Behind the last equals sign of the line stand the last part of the value and a quote, with
the other quote before them if that part is all of the value. -/
theorem exists_afterLast_setting {key value part : String} (h : LastPart '=' value part) :
    ∃ opening, (∀ c ∈ opening, c = '"') ∧
      Text.afterLast '=' (setting key value) = .ofList (opening ++ part.toList ++ ['"']) := by
  obtain ⟨hn, before, hb, hvalue⟩ := h
  have hlast : ∀ opening, '=' ∉ opening → '=' ∉ opening ++ part.toList ++ ['"'] := by
    intro opening hopening
    simp [hopening, hn]
  -- the last equals sign is the one behind the key, or the last one of the value
  rcases hb with rfl | ⟨earlier, rfl⟩
  · refine ⟨['"'], by simp, Text.afterLast_eq_iff.2 ⟨?_, key.toList ++ ['='], .inr ⟨_, rfl⟩, ?_⟩⟩
    · rw [String.toList_ofList]
      exact hlast _ (by decide)
    · rw [toList_setting, hvalue, String.toList_ofList]
      simp
  · refine ⟨[], by simp, Text.afterLast_eq_iff.2
      ⟨?_, key.toList ++ ['=', '"'] ++ earlier ++ ['='], .inr ⟨_, rfl⟩, ?_⟩⟩
    · rw [String.toList_ofList]
      exact hlast _ List.not_mem_nil
    · rw [toList_setting, hvalue, String.toList_ofList]
      simp

theorem ubuntu?_eq {f : File} {description part : String}
    (hline : FirstWith "DISTRIB_DESCRIPTION" f (setting "DISTRIB_DESCRIPTION" description))
    (hquote : '"' ∉ description.toList) (hpart : LastPart '=' description part) :
    ubuntu? f = some (if part = "" then "Ubuntu unknown" else part) := by
  obtain ⟨opening, hopening, hafter⟩ := exists_afterLast_setting hpart
  have hquotes : '"' ∉ part.toList := by
    obtain ⟨-, before, -, he⟩ := hpart
    intro h
    exact hquote (he ▸ List.mem_append_right _ h)
  have hstrip : Text.strip '"' (.ofList (opening ++ part.toList ++ ['"'])) = part := by
    refine Text.strip_eq_iff.2 ⟨⟨opening, ['"'], String.toList_ofList, ?_⟩,
      fun h => hquotes (List.mem_of_head? h), fun h => hquotes (List.mem_of_getLast? h)⟩
    exact List.forall_mem_append.2 ⟨hopening, List.forall_mem_singleton.2 rfl⟩
  rw [ubuntu?, (lineWith?_eq_some_iff (by decide)).2 hline, Option.bind_eq_bind, Option.bind_some,
    hafter, hstrip]
  rfl

/-! ## The source that settles the name -/

theorem detect_eq_of_first {root : Root} {before after : List (String × (File → Option String))}
    {path name : String} {read : File → Option String}
    (hsources : sources = before ++ (path, read) :: after)
    (hbefore : ∀ source ∈ before, source.2 (root source.1) = none)
    (hname : read (root path) = some name) : detect root = name := by
  rw [detect, List.findSome?_eq_some_iff.2 ⟨before, (path, read), after, hsources, hname, hbefore⟩]
  rfl

/-- A root that describes its distribution: there is no release file of the kinds that are
asked first, and the first line about the description gives this one between quotes. It is
not empty and has no quote; being part of a line, it has no line feed either. -/
structure Described (root : Root) (description : String) : Prop where
  redHat : ∀ bytes, root "etc/redhat-release" ≠ .content bytes
  amazon : ∀ bytes, root "etc/release-cpe" ≠ .content bytes
  line : FirstWith "DISTRIB_DESCRIPTION" (root "etc/lsb-release")
    (setting "DISTRIB_DESCRIPTION" description)
  ne_empty : description ≠ ""
  unquoted : '"' ∉ description.toList

theorem Described.detect_eq {root : Root} {description part : String}
    (h : Described root description) (hpart : LastPart '=' description part) :
    detect root = if part = "" then "Ubuntu unknown" else part := by
  have hsources : sources = [("etc/redhat-release", firstLine?), ("etc/release-cpe", amazon?)] ++
      ("etc/lsb-release", ubuntu?) :: sources.drop 3 := rfl
  have hredHat : firstLine? (root "etc/redhat-release") = none := lineWith?_eq_none h.redHat ""
  have hamazon : amazon? (root "etc/release-cpe") = none := by
    rw [amazon?, firstLine?, lineWith?_eq_none h.amazon, Option.bind_eq_bind, Option.bind_none]
  refine detect_eq_of_first hsources ?_ (ubuntu?_eq h.line h.unquoted hpart)
  exact List.forall_mem_cons.2 ⟨hredHat, List.forall_mem_singleton.2 hamazon⟩

/-- A description is reported whole exactly if it has no equals sign. In any case its last
part is reported, or a fixed name if that part is empty. What else the file has, and all
files that are asked later, have no part in it. -/
theorem detect_described {root : Root} {description : String} (h : Described root description) :
    (detect root = description ↔ '=' ∉ description.toList) ∧
      ∀ part, LastPart '=' description part →
        detect root = if part = "" then "Ubuntu unknown" else part := by
  refine ⟨⟨fun hwhole hequals => ?_, fun hequals => ?_⟩, fun part hpart => h.detect_eq hpart⟩
  · have hpart : LastPart '=' description (Text.afterLast '=' description) :=
      Text.afterLast_eq_iff.1 rfl
    rw [h.detect_eq hpart] at hwhole
    -- neither the fixed name nor the last part has an equals sign
    split at hwhole
    · rw [← hwhole] at hequals
      exact absurd hequals (by decide)
    · rw [hwhole] at hpart
      exact hpart.1 hequals
  · have hwhole : LastPart '=' description description := ⟨hequals, [], .inl rfl, rfl⟩
    rw [h.detect_eq hwhole, if_neg h.ne_empty]

/-- The line stands between blanks and a later one gives another description, behind which
the content is no text. -/
theorem detect_described_of_repeated :
    let content := Text.utf8 "DISTRIB_ID=Ubuntu\n\tDISTRIB_DESCRIPTION=\"Ubuntu 22.04\" \r\n" ++
      Text.utf8 "DISTRIB_DESCRIPTION=\"Ubuntu 24.04\"\n" ++ [0xff]
    let root := Root.ofList [("etc/lsb-release", .content content),
      ("etc/debian_version", .content (Text.utf8 "12.4\n"))]
    Described root "Ubuntu 22.04" ∧ detect root = "Ubuntu 22.04" := by
  intro content root
  have hredHat : root "etc/redhat-release" = .absent := by decide +kernel
  have hamazon : root "etc/release-cpe" = .absent := by decide +kernel
  have hline : lineWith? (root "etc/lsb-release") "DISTRIB_DESCRIPTION" =
      some (setting "DISTRIB_DESCRIPTION" "Ubuntu 22.04") := by decide +kernel
  have hdescribed : Described root "Ubuntu 22.04" :=
    ⟨by simp [hredHat], by simp [hamazon], (lineWith?_eq_some_iff (by decide)).1 hline,
      by decide, by decide⟩
  exact ⟨hdescribed, (detect_described hdescribed).1.2 (by decide)⟩

/-- What stands before the last equals sign of a description is cut off. -/
theorem equals_sign_cuts_description :
    let content := Text.utf8 (setting "DISTRIB_DESCRIPTION" "Ubuntu 22.04 (edition=core)" ++ "\n")
    let root := Root.ofList [("etc/lsb-release", .content content)]
    Described root "Ubuntu 22.04 (edition=core)" ∧ detect root = "core)" := by
  intro content root
  have hredHat : root "etc/redhat-release" = .absent := by decide +kernel
  have hamazon : root "etc/release-cpe" = .absent := by decide +kernel
  have hline : lineWith? (root "etc/lsb-release") "DISTRIB_DESCRIPTION" =
      some (setting "DISTRIB_DESCRIPTION" "Ubuntu 22.04 (edition=core)") := by decide +kernel
  have hdetect : detect root = "core)" := by decide +kernel
  exact ⟨⟨by simp [hredHat], by simp [hamazon], (lineWith?_eq_some_iff (by decide)).1 hline,
    by decide, by decide⟩, hdetect⟩

end SpanMetrics.Host.Distro
