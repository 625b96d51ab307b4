import SpanMetrics.Bson.Reader
import SpanMetrics.Histogram.Wire

/-!
# What a message tells

The other end of a message: what its reader takes out of the document. Counters and histograms are
documents in two arrays; what they belong to is in their tags.
-/
namespace SpanMetrics.Message

open Bson (Value Document)

/-- The documents in the array of a key, in order. -/
def listed (d : Document) (key : String) : List Document :=
  ((Bson.field? d key).elim [] Value.inner).map (·.2.inner)

def tagNames (entry : Document) : List String :=
  Bson.keys ((Bson.field? entry "tags").elim [] Value.inner)

/-- The count of a counter, in either width. -/
def count? (entry : Document) : Option Int := (Bson.field? entry "count").bind Value.int?

/-- The histogram behind the text of an entry. -/
def histogram? (entry : Document) : Option Histogram := do
  let text ← (← Bson.field? entry "value").text?
  Histogram.Wire.decode? text

/-- The counters in messages whose tag names are of some kind. -/
def countersOf (kind : List String → Bool) (messages : List Document) : List Document :=
  (messages.flatMap (listed · "measurements")).filter (kind <| tagNames ·)

/-- The counts of the counters of a kind, added up over messages. -/
def countOf (kind : List String → Bool) (messages : List Document) : Option Int :=
  ((countersOf kind messages).mapM count?).map fun counts => counts.foldr (· + ·) 0

/-- The histograms in messages that have no tags. -/
def overallOf (messages : List Document) : List Document :=
  (messages.flatMap (listed · "histograms")).filter fun entry =>
    (Bson.field? entry "tags").isNone

/-- The samples of the histograms without tags, added up over messages. -/
def samplesOf (messages : List Document) : Option Nat :=
  ((overallOf messages).mapM histogram?).map fun histograms =>
    histograms.foldr (fun h n => h.total + n) 0

end SpanMetrics.Message
