import SpanMetrics.Bytes.Words

/-!
# Texts and lines

Text arrives as bytes. A line ends at a line feed, and one carriage return right before that line
feed belongs to the ending; what follows the last line feed is a line if it is not empty, and a
carriage return at its end is part of it.
-/
namespace SpanMetrics.Text

def utf8 (s : String) : Bytes := s.toByteArray.data.toList

/-- The text of which the bytes are the UTF-8 form. -/
def ofUtf8? (bytes : Bytes) : Option String := String.fromUTF8? ⟨bytes.toArray⟩

theorem ofUtf8?_utf8 (s : String) : ofUtf8? (utf8 s) = some s := by
  simp [ofUtf8?, utf8, String.fromUTF8?, s.isValidUTF8, String.fromUTF8]

/-- A line without the carriage return of its ending. -/
def withoutReturn {α : Type} [BEq α] (ret : α) (line : List α) : List α :=
  if line.getLast? == some ret then line.dropLast else line

/-- Lines over any alphabet with a line feed and a carriage return. -/
def linesWith {α : Type} [BEq α] (feed ret : α) (xs : List α) : List (List α) :=
  let parts := xs.splitOn feed
  let unclosed := parts.getLast?.getD []
  parts.dropLast.map (withoutReturn ret) ++ if unclosed.isEmpty then [] else [unclosed]

def lines (s : String) : List String := (linesWith '\n' '\r' s.toList).map .ofList

/-- The lines of a byte content, `none` for a line that is not UTF-8. -/
def byteLines (bytes : Bytes) : List (Option String) :=
  (linesWith 10 13 bytes).map ofUtf8?

end SpanMetrics.Text
