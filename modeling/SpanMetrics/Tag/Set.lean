import SpanMetrics.Tag.Basic

/-!
# Tag sets

A set of tags is a strictly increasing list, so two sets with the same tags are equal whatever the
order in which they were put together. A name may carry several values; the least one comes first.
-/
namespace SpanMetrics

structure TagSet where
  toList : List Tag
  increasing : toList.Pairwise Tag.before
deriving DecidableEq

namespace TagSet

theorem ext_toList {a b : TagSet} (h : a.toList = b.toList) : a = b := by
  cases a; cases b; simp_all

/-- The tag at its place in an increasing list, once. -/
def place (tag : Tag) : List Tag → List Tag
  | [] => [tag]
  | head :: rest =>
    if tag = head then head :: rest
    else if tag.before head then tag :: head :: rest
    else head :: place tag rest

theorem mem_place {tag other : Tag} {tags : List Tag} :
    other ∈ place tag tags ↔ other = tag ∨ other ∈ tags := by
  induction tags with
  | nil => simp [place]
  | cons head rest ih =>
    by_cases h : tag = head
    · subst h; simp [place]
    · by_cases hb : tag.before head
      · simp [place, h, hb]
      · simp only [place, h, hb, if_false, List.mem_cons, ih]
        grind

theorem increasing_place {tag : Tag} {tags : List Tag} (h : tags.Pairwise Tag.before) :
    (place tag tags).Pairwise Tag.before := by
  induction tags with
  | nil => simp [place]
  | cons head rest ih =>
    obtain ⟨hh, hr⟩ := List.pairwise_cons.1 h
    by_cases he : tag = head
    · simpa [place, he] using h
    · by_cases hb : tag.before head
      · simp only [place, he, hb, if_true, if_false]
        refine List.pairwise_cons.2 ⟨fun t ht => ?_, h⟩
        rcases List.mem_cons.1 ht with rfl | ht
        · exact hb
        · exact Tag.before_trans hb (hh t ht)
      · simp only [place, he, hb, if_false]
        refine List.pairwise_cons.2 ⟨fun t ht => ?_, ih hr⟩
        rcases mem_place.1 ht with rfl | ht
        · rcases Tag.before_or_eq_or_after head t with h' | h' | h'
          · exact h'
          · exact absurd h'.symm he
          · exact absurd h' hb
        · exact hh t ht

def empty : TagSet := ⟨[], .nil⟩

instance : Inhabited TagSet := ⟨empty⟩

def insert (tags : TagSet) (tag : Tag) : TagSet :=
  ⟨place tag tags.toList, increasing_place tags.increasing⟩

def ofList (tags : List Tag) : TagSet := tags.foldl insert empty

def size (tags : TagSet) : Nat := tags.toList.length

def isEmpty (tags : TagSet) : Bool := tags.toList.isEmpty

/-- The least value that the set has for a name. -/
def get? (tags : TagSet) (name : String) : Option String :=
  (tags.toList.find? (·.name = name)).map (·.value)

/-- The tags as they go on the wire, in the order of the set. -/
def truncated (tags : TagSet) : List Tag := tags.toList.map Tag.truncated

end TagSet

/-- The text under which a series is kept: its name, whether its sum is reported, and its tags in
order. The parts are joined as they are, so distinct series whose names or tags hold the separators
can share a key, and then they share one entry. -/
def seriesKey (name : String) (reportSum : Bool) (tags : TagSet) : String :=
  name ++ "&" ++ (if reportSum then "true" else "false") ++ "&" ++
    String.join (tags.toList.map fun tag => tag.name ++ ":" ++ tag.value ++ "&")

end SpanMetrics
