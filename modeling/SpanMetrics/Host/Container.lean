import SpanMetrics.Host.File
import SpanMetrics.Log.Logged
import SpanMetrics.Text.Search

/-!
# The container

The id of the container that a process runs in, from the list of its control groups. The keywords
of container engines are tried in order; the first line with the first of them that occurs at all
is the only one that is searched for an id.
-/
namespace SpanMetrics.Host.Container

def keywords : List String := ["/docker/", "/ecs/", "/kubepods/"]

def isLowerHex (c : Char) : Bool := ('0' ≤ c && c ≤ '9') || ('a' ≤ c && c ≤ 'f')

/-- Whether a text has the form of an id: 64 lower-case hexadecimal digits. -/
def isId (s : String) : Bool := s.toList.length == 64 && s.toList.all isLowerHex

/-- The line that is searched for an id. -/
def line? (contents : String) : Option String :=
  keywords.findSome? fun keyword => (Text.lines contents).find? (Text.holds · keyword)

/-- The first part between slashes of that line that has the form of an id. -/
def id? (contents : String) : Option String := do
  (Text.splitAt '/' (← line? contents)).find? isId

/-- The id in a file. A file that cannot be read is logged under its path. -/
def ofFile (path : String) (f : File) : Logged (Option String) :=
  match f.text with
  | .ok contents => return id? contents
  | .error e => do
    Logged.say .debug ("Could not read " ++ path ++ ": " ++ e.message)
    return none

end SpanMetrics.Host.Container
