/-!
# Names from paths

A request without a name is named by the first three segments of its path. The slash at the start
of a path opens no segment, and an empty path is the root.
-/
namespace SpanMetrics.Transaction

/-- Segments of a path that go into a name. -/
def segmentLimit : Nat := 3

def ofPath (path : String) : String :=
  if path = "" then "/"
  else
    let segments := path.toList.splitOn '/'
    let kept := if path.toList.head? = some '/' then segmentLimit + 1 else segmentLimit
    .ofList (['/'].intercalate (segments.take kept))

example : ofPath "/a/b/c/d#e" = "/a/b/c" := by decide +kernel
example : ofPath "http://h/x" = "http://h" := by decide +kernel
example : ofPath "/" = "/" := by decide +kernel

end SpanMetrics.Transaction
