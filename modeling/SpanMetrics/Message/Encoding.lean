import SpanMetrics.Message.Snapshot

/-!
# Encoding histograms one after the other

The entries are gone through once. One that has a wire form adds a document and an outcome, any other
one adds an outcome and is logged. Nothing is read of an entry but its name, its tags and the answer of
the encoder, so entries may be of any kind; where they are places in a list, the encoder may answer
differently for two entries that look alike.
-/
namespace SpanMetrics.Message

open Bson (Value)

/-- What is read of an entry. -/
structure Encoder (α : Type) where
  name : α → String
  tags : α → TagSet
  encode : α → Except HistogramError String

namespace Encoder

variable {α : Type} (E : Encoder α)

/-- The encoder that reads the entries of a histogram table. -/
def ofHistograms (encode : HistogramEntry → Except HistogramError String) :
    Encoder HistogramEntry :=
  ⟨(·.name), (·.tags), encode⟩

/-- The document of an entry whose wire form is known. -/
def document (e : α) (wire : String) : Value :=
  .document ([("name", .string ResponseTime.seriesName), ("value", .string wire)] ++
    tagsField (E.tags e))

/-- Puts an entry behind the documents and outcomes so far. -/
def add (done : List Value × List EntryOutcome) (e : α) :
    Logged (List Value × List EntryOutcome) :=
  match E.encode e with
  | .ok wire => return (done.1 ++ [E.document e wire], done.2 ++ [.encoded (E.name e)])
  | .error cause => do
    Logged.say .error ("Failed to encode histogram '" ++ E.name e ++ "': " ++ cause.message)
    return (done.1, done.2 ++ [.omitted (E.name e) cause])

def encodeAll (entries : List α) : Logged (List Value × List EntryOutcome) :=
  entries.foldlM E.add ([], [])

end Encoder
end SpanMetrics.Message
