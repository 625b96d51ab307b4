import SpanMetrics.Text.Search

/-!
# Paths

Where a path leads, by its names alone: an empty name or a single dot stays, two dots lead to the
parent, and every other name leads on. Places are told apart below some root; what lies above the
root has no names here.
-/
namespace SpanMetrics.Host

/-- A place below a root, or somewhere above it. -/
inductive Place where
  /-- The names on the way from the root. -/
  | inside (way : List String)
  | above
deriving DecidableEq, Repr

namespace Place

/-- The directory that holds a place. There always is one, since the topmost directory is its
own. -/
def parent : Place → Place
  | inside [] => above
  | inside way => inside way.dropLast
  | above => above

/-- Where a name leads from a place. -/
def enter (place : Place) (name : String) : Place :=
  if name = ".." then place.parent
  else match place with
    | inside way => inside (way ++ [name])
    | above => above

end Place

namespace Path

/-- Longest path that can be looked up, in bytes. -/
def limit : Nat := 4095

def isAbsolute (path : String) : Bool := path.toList.head? = some '/'

/-- A path from a directory on; one that is absolute does not depend on it. -/
def join (directory path : String) : String :=
  if isAbsolute path then path else directory ++ "/" ++ path

/-- The names along a path, without those that stay where they are. -/
def names (path : String) : List String :=
  (Text.splitAt '/' path).filter fun name => name ≠ "" ∧ name ≠ "."

def start (path : String) : Place := if isAbsolute path then .above else .inside []

def place (path : String) : Place := (names path).foldl Place.enter (start path)

example : place "net/./lo/../lo/" = .inside ["net", "lo"] := by decide +kernel
example : place "net/../../net" = .above := by decide +kernel

end Path
end SpanMetrics.Host
