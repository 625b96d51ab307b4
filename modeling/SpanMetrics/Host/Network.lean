import SpanMetrics.Bytes.Words
import SpanMetrics.Host.Path

/-!
# Network interfaces

Hardware addresses as text, and telling physical interfaces from virtual ones: every virtual
interface has an entry in a directory. The name of an interface is looked up there like any path,
so a name made of dots or with slashes in it goes where it leads.
-/
namespace SpanMetrics.Host.Network

/-- Bytes in hexadecimal, separated by colons. -/
def macText (bytes : Bytes) : String :=
  .ofList ([':'].intercalate (bytes.map Bytes.hexByte))

/-- The directories below a root, by the names on the way to them. Nothing is known of what there
is above the root, except that it can be passed through. -/
structure Tree where
  directories : List (List String)
deriving DecidableEq, Repr

namespace Tree

def empty : Tree := ⟨[]⟩

instance : Inhabited Tree := ⟨empty⟩

def insert (t : Tree) : Place → Tree
  | .inside way => if way ∈ t.directories then t else ⟨t.directories ++ [way]⟩
  | .above => t

/-- Makes the directory of a path and those on the way to it. -/
def make (t : Tree) (path : String) : Tree :=
  ((Path.names path).foldl (fun (t, place) name => (t.insert (place.enter name), place.enter name))
    (t, Path.start path)).1

/-- Where a name leads from a place, if there is a directory. -/
def step? (t : Tree) (place : Place) (name : String) : Option Place :=
  if name = ".." then some place.parent
  else match place.enter name with
    | .inside way => if way ∈ t.directories then some (.inside way) else none
    | .above => none

/-- Whether every name of a path leads to a directory. -/
def has (t : Tree) (path : String) : Bool :=
  path.utf8ByteSize ≤ Path.limit &&
    ((Path.names path).foldlM t.step? (Path.start path)).isSome

end Tree

/-- Whether an interface is physical, given the directory of the virtual ones. -/
def isPhysical (t : Tree) (directory name : String) : Bool :=
  name ≠ "" && !t.has (Path.join directory name)

end SpanMetrics.Host.Network
