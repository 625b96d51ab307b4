import SpanMetrics.Text.Lines

/-!
# Files

What can be found under a path, and how reading it fails. A directory can be opened like a file but
has no content to read.
-/
namespace SpanMetrics.Host

inductive File where
  | absent
  | directory
  | content (bytes : Bytes)
deriving DecidableEq, Repr, Inhabited

inductive ReadError where
  | noSuchFile
  | isDirectory
  /-- The content is not UTF-8. -/
  | notText
  /-- The content does not have what was looked for. -/
  | notFound (what : String)
deriving DecidableEq, Repr

def ReadError.message : ReadError → String
  | noSuchFile => "No such file or directory (os error 2)"
  | isDirectory => "Is a directory (os error 21)"
  | notText => "stream did not contain valid UTF-8"
  | notFound what => what ++ " not found"

namespace File

def bytes : File → Except ReadError Bytes
  | absent => .error .noSuchFile
  | directory => .error .isDirectory
  | content bytes => .ok bytes

def text (f : File) : Except ReadError String := do
  match Text.ofUtf8? (← f.bytes) with
  | some s => return s
  | none => .error .notText

/-- The lines of the file, `none` for one that is not UTF-8. -/
def lines (f : File) : Except ReadError (List (Option String)) := do
  return Text.byteLines (← f.bytes)

/-- The lines up to the first one that is not UTF-8; a file that cannot be read has none. -/
def readableLines (f : File) : List String :=
  match f.lines with
  | .ok lines => (lines.takeWhile Option.isSome).filterMap id
  | .error _ => []

end File
end SpanMetrics.Host
