import SpanMetrics.Host.File
import SpanMetrics.Host.Path
import SpanMetrics.Text.Search

/-!
# The installed distribution

The name of the installed distribution, from the release files that distributions put under `etc`.
Some of them ship several, so the files are asked in a fixed order and the first one that has
something to say settles the name.
-/
namespace SpanMetrics.Host.Distro

/-- Files by their path below some directory. -/
abbrev Root := String → File

/-- The root with these files; of two files at one place the later one counts. -/
def Root.ofList (files : List (String × File)) : Root := fun path =>
  ((files.reverse.find? fun f => Path.place f.1 = Path.place path).map (·.2)).getD .absent

/-- The first line, trimmed, that is not empty and holds a keyword. -/
def lineWith? (f : File) (keyword : String) : Option String :=
  (f.readableLines.map Text.trim).find? fun line => line ≠ "" && Text.holds line keyword

/-- The first line, trimmed, that is not empty. -/
def firstLine? (f : File) : Option String := lineWith? f ""

/-- The version is what follows the last colon of the platform's name. -/
def amazon? (f : File) : Option String := do
  let version := Text.afterLast ':' (← firstLine? f)
  if version = "" then none else return "Amzn Linux " ++ version

/-- The description is what follows the last equals sign, without quotes. -/
def ubuntu? (f : File) : Option String := do
  let description := Text.strip '"' (Text.afterLast '=' (← lineWith? f "DISTRIB_DESCRIPTION"))
  return if description = "" then "Ubuntu unknown" else description

def debian? (f : File) : Option String := (firstLine? f).map ("Debian " ++ ·)

/-- The release files in the order in which they are asked, with what they tell. -/
def sources : List (String × (File → Option String)) :=
  [("etc/redhat-release", firstLine?), ("etc/release-cpe", amazon?),
    ("etc/lsb-release", ubuntu?), ("etc/debian_version", debian?),
    ("etc/SuSE-release", firstLine?), ("etc/slackware-version", firstLine?),
    ("etc/gentoo-release", firstLine?), ("etc/issue", firstLine?)]

def detect (root : Root) : String :=
  (sources.findSome? fun (path, read) => read (root path)).getD "Unknown"

end SpanMetrics.Host.Distro
