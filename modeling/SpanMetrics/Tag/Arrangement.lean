import SpanMetrics.Tag.Set
import SpanMetrics.Text.Lines

/-!
# Arranging tags

How a tag set comes about as a list, step by step. The tags that are given at first are sorted by
their bytes, and repetitions, which then stand side by side, are left out. A further tag is looked
for by halving the list, and is inserted where the search ended unless it was found there.
-/
namespace SpanMetrics.Tag

/-- The order by bytes, of names and then of values. -/
def precedes (a b : Tag) : Prop :=
  Text.utf8 a.name < Text.utf8 b.name ∨ a.name = b.name ∧ Text.utf8 a.value < Text.utf8 b.value

instance (a b : Tag) : Decidable (a.precedes b) := inferInstanceAs (Decidable (_ ∨ _))

/-- The first of every run of equal tags. -/
def withoutRepeats : List Tag → List Tag
  | first :: second :: rest =>
    if first = second then withoutRepeats (second :: rest)
    else first :: withoutRepeats (second :: rest)
  | tags => tags

def arrange (tags : List Tag) : List Tag :=
  withoutRepeats (tags.mergeSort fun a b => decide ¬b.precedes a)

/-- Halves `size` places from `start` on until one is left: that of the last tag which does not
come after `tag`, or `start` if there is none. -/
def halve (tags : List Tag) (tag : Tag) (start size : Nat) : Nat :=
  if size ≤ 1 then start
  else
    let middle := start + size / 2
    if tags[middle]?.any (tag.precedes ·) then halve tags tag start (size - size / 2)
    else halve tags tag middle (size - size / 2)
termination_by size

/-- The place of a tag, or the place where it is to be inserted. -/
def search (tags : List Tag) (tag : Tag) : Except Nat Nat :=
  let place := halve tags tag 0 tags.length
  match tags[place]? with
  | none => .error place
  | some other =>
    if other = tag then .ok place
    else if other.precedes tag then .error (place + 1)
    else .error place

/-- The tags with one more, unless it is among them. -/
def add (tags : List Tag) (tag : Tag) : List Tag :=
  match search tags tag with
  | .ok _ => tags
  | .error place => tags.take place ++ tag :: tags.drop place

end SpanMetrics.Tag
