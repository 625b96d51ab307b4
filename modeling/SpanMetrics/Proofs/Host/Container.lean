import SpanMetrics.Host.Container
import SpanMetrics.Proofs.Text.Pieces

/-!
# The line that names the container

The search for the id of a container settles on one line before it looks for an id:
the first line that holds the keyword, for the first keyword that occurs at all. An
id that it finds is one of a marked line. An id on another marked line is missed
when the line it settles on has none.
-/
namespace SpanMetrics.Host.Container

open Text (Line Part lines)

/-- A line that holds the keyword of a container engine. -/
def Marked (line : String) : Prop :=
  ∃ keyword ∈ keywords, keyword.toList <:+: line.toList

/-- An id is one of the parts of a line between its slashes: 64 characters, each a digit or
a letter from a to f. -/
structure Names (line id : String) : Prop where
  part : Part '/' line id
  length : id.length = 64
  digits : ∀ c ∈ id.toList, ('0' ≤ c ∧ c ≤ '9') ∨ ('a' ≤ c ∧ c ≤ 'f')

/-- The line that the search settles on: the first one with a keyword such that no line has
a keyword from before it. -/
def Searched (contents line : String) : Prop :=
  ∃ tried keyword untried, keywords = tried ++ keyword :: untried ∧
    (keyword.toList <:+: line.toList ∧
      ∃ before after, lines contents = before ++ line :: after ∧
        ∀ other ∈ before, ¬ keyword.toList <:+: other.toList) ∧
    ∀ word ∈ tried, ∀ other ∈ lines contents, ¬ word.toList <:+: other.toList

/-! ## The line -/

theorem line?_eq_some_iff {contents line : String} :
    line? contents = some line ↔ Searched contents line := by
  simp only [line?, Searched, List.findSome?_eq_some_iff, List.find?_eq_some_iff_append,
    List.find?_eq_none, Text.holds_iff, Bool.not_eq_true', ← Bool.not_eq_true]

theorem Searched.unique {contents a b : String} (ha : Searched contents a)
    (hb : Searched contents b) : a = b := by
  rw [← line?_eq_some_iff] at ha hb
  exact Option.some.inj (ha.symm.trans hb)

theorem Searched.marked {contents line : String} (h : Searched contents line) :
    Line contents line ∧ Marked line := by
  obtain ⟨tried, keyword, untried, hk, ⟨hin, before, after, hl, -⟩, -⟩ := h
  refine ⟨Text.mem_lines_iff.1 ?_, keyword, ?_, hin⟩
  · rw [hl]
    exact List.mem_append_right _ List.mem_cons_self
  · rw [hk]
    exact List.mem_append_right _ List.mem_cons_self

theorem exists_searched {contents line : String} (hl : Line contents line) (hm : Marked line) :
    ∃ searched, Searched contents searched := by
  obtain ⟨keyword, hk, hin⟩ := hm
  simp only [← line?_eq_some_iff, ← Option.isSome_iff_exists, line?, List.findSome?_isSome_iff,
    List.find?_isSome]
  exact ⟨keyword, hk, line, Text.mem_lines_iff.2 hl, Text.holds_iff.2 hin⟩

/-! ## The id -/

theorem names_iff {line id : String} : Names line id ↔ id ∈ Text.splitAt '/' line ∧ isId id := by
  rw [Text.mem_splitAt_iff, isId, Bool.and_eq_true, beq_iff_eq, String.length_toList,
    List.all_eq_true]
  simp only [isLowerHex, Bool.or_eq_true, Bool.and_eq_true, decide_eq_true_eq]
  exact ⟨fun h => ⟨h.part, h.length, h.digits⟩, fun h => ⟨h.1, h.2.1, h.2.2⟩⟩

theorem names_of_id? {contents id : String} (h : id? contents = some id) :
    ∃ line, Searched contents line ∧ Names line id := by
  obtain ⟨line, hl, hid⟩ := Option.bind_eq_some_iff.1 h
  exact ⟨line, line?_eq_some_iff.1 hl,
    names_iff.2 ⟨List.mem_of_find?_eq_some hid, List.find?_some hid⟩⟩

/-- The search finds an id exactly where the line that it settles on names one. -/
theorem exists_id?_iff {contents : String} :
    (∃ id, id? contents = some id) ↔ ∃ line, Searched contents line ∧ ∃ id, Names line id := by
  constructor
  · intro ⟨id, h⟩
    obtain ⟨line, hl, hn⟩ := names_of_id? h
    exact ⟨line, hl, id, hn⟩
  · intro ⟨line, hl, id, hn⟩
    obtain ⟨hp, hid⟩ := names_iff.1 hn
    rw [← Option.isSome_iff_exists, id?, line?_eq_some_iff.2 hl]
    exact List.find?_isSome.2 ⟨id, hp, hid⟩

/-- The search misses no id where only one line is marked. -/
theorem exists_id?_of_unique {contents line : String} (hl : Line contents line)
    (hm : Marked line) (hone : ∀ other, Line contents other → Marked other → other = line) :
    (∃ id, id? contents = some id) ↔ ∃ id, Names line id := by
  obtain ⟨searched, hs⟩ := exists_searched hl hm
  obtain rfl := hone searched hs.marked.1 hs.marked.2
  rw [exists_id?_iff]
  exact ⟨fun ⟨_, hs', hid⟩ => hs.unique hs' ▸ hid, fun hid => ⟨searched, hs, hid⟩⟩

/-- An id that is found stands on a marked line. One is found wherever the line that the
search settles on names one, and so wherever any marked line names one exactly if the
line that the search settles on then does. -/
theorem id?_found (contents : String) :
    (∀ id, id? contents = some id → ∃ line, Line contents line ∧ Marked line ∧ Names line id) ∧
      ((∃ id, id? contents = some id) ↔ ∃ line, Searched contents line ∧ ∃ id, Names line id) ∧
      (((∃ id, id? contents = some id) ↔
          ∃ line, Line contents line ∧ Marked line ∧ ∃ id, Names line id) ↔
        ∀ line, Searched contents line →
          (∃ other, Line contents other ∧ Marked other ∧ ∃ id, Names other id) →
            ∃ id, Names line id) := by
  refine ⟨fun id h => ?_, exists_id?_iff, ?_⟩
  · obtain ⟨line, hl, hn⟩ := names_of_id? h
    exact ⟨line, hl.marked.1, hl.marked.2, hn⟩
  · rw [exists_id?_iff]
    constructor
    · intro hclaim line hl hnamed
      obtain ⟨searched, hs, hid⟩ := hclaim.2 hnamed
      rwa [hl.unique hs]
    · intro hsearched
      constructor
      · intro ⟨line, hl, hid⟩
        exact ⟨line, hl.marked.1, hl.marked.2, hid⟩
      · intro ⟨line, hl, hm, hid⟩
        obtain ⟨searched, hs⟩ := exists_searched hl hm
        exact ⟨searched, hs, hsearched searched hs ⟨line, hl, hm, hid⟩⟩

/-- The line before has a keyword that is tried later, and is passed over. -/
theorem id?_found_of_two_lines :
    let id := "40188af19439697187e3f60b933e7e37c5c41035f4c0b266a51c86c5a0074b25"
    let contents := "3:cpu:/ecs/task\n9:devices:/docker/" ++ id ++ "\r\n"
    id? contents = some id ∧
      ∃ line, Line contents line ∧ Marked line ∧ Names line id := by
  intro id contents
  have hfound : id? contents = some id := by decide +kernel
  exact ⟨hfound, (id?_found contents).1 id hfound⟩

/-- A marked line without an id keeps the search from the id on the next one. -/
theorem nameless_line_hides_id :
    let id := "40188af19439697187e3f60b933e7e37c5c41035f4c0b266a51c86c5a0074b25"
    let contents := "12:cpu,cpuacct:/docker/buildkit\n9:devices:/docker/" ++ id ++ "\n"
    id? contents = none ∧ ∃ line, Line contents line ∧ Marked line ∧ Names line id := by
  intro id contents
  refine ⟨by decide +kernel, "9:devices:/docker/" ++ id, Text.mem_lines_iff.1 (by decide +kernel),
    ⟨"/docker/", List.mem_cons_self, Text.holds_iff.1 (by decide +kernel)⟩,
    names_iff.2 (by decide +kernel)⟩

end SpanMetrics.Host.Container
