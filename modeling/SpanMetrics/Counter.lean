import SpanMetrics.Double.Rounding
import SpanMetrics.Table
import SpanMetrics.Tag.Set
import SpanMetrics.Width

/-!
# Counters

A counter series adds up a count and a sum. A table keeps its series by `seriesKey`, so an update
reaches the entry of its key and no other; the entry has the name, tags and kind of the update that
was the first under its key. A response time updates up to four series at once.

A count is a signed number of 64 bits that wraps around. It is added up here without a bound, and
`kept` is what 64 bits keep of it: that is again a sum, on 64 bits, and it is the count itself as
long as the count does not leave the range.
-/
namespace SpanMetrics

structure CounterUpdate where
  name : String
  tags : TagSet
  value : Double
  count : Int
  reportSum : Bool
deriving DecidableEq

def CounterUpdate.key (u : CounterUpdate) : String := seriesKey u.name u.reportSum u.tags

structure Counter where
  name : String
  tags : TagSet
  count : Int
  sum : Double
  reportSum : Bool
deriving DecidableEq

namespace Counter

def key (c : Counter) : String := seriesKey c.name c.reportSum c.tags

/-- The series of an update, before it. -/
def start (u : CounterUpdate) : Counter := ⟨u.name, u.tags, 0, .zero, u.reportSum⟩

def add (c : Counter) (u : CounterUpdate) : Counter :=
  { c with count := c.count + u.count, sum := c.sum + u.value }

/-- The count on 64 bits, as it is reported. -/
def kept (c : Counter) : Int64 := .ofInt c.count

@[simp] theorem kept_start (u : CounterUpdate) : (start u).kept = 0 := rfl

@[simp] theorem kept_add (c : Counter) (u : CounterUpdate) :
    (c.add u).kept = c.kept + .ofInt u.count := Int64.ofInt_add c.count u.count

/-- Nothing is lost of a count within the range. -/
theorem toInt_kept {c : Counter} (hl : -(Width.half64 : Int) ≤ c.count)
    (hu : c.count < Width.half64) : c.kept.toInt = c.count :=
  Int64.toInt_ofInt_of_le hl hu

end Counter

abbrev CounterTable := Table Counter

namespace CounterTable

def record (t : CounterTable) (u : CounterUpdate) : CounterTable :=
  t.alter u.key fun c => (c.getD (.start u)).add u

def recordAll (t : CounterTable) (updates : List CounterUpdate) : CounterTable :=
  updates.foldl record t

end CounterTable

/-- One response with the dimensions along which it is counted. -/
structure ResponseTime where
  transaction : String
  method : String
  status : UInt16
  failed : Bool
  value : Double
deriving DecidableEq

namespace ResponseTime

def seriesName : String := "TransactionResponseTime"

def transactionTag : String := "TransactionName"

def primary (transaction : String) : TagSet := .ofList [⟨transactionTag, transaction⟩]

/-- The tag sets of a response: the transaction, then also the method, then also the status, and
for a failed one also the failure. -/
def tagSets (r : ResponseTime) : List TagSet :=
  let own := primary r.transaction
  [own, own.insert ⟨"HttpMethod", r.method⟩,
    own.insert ⟨"HttpStatus", toString r.status.toNat⟩] ++
    if r.failed then [own.insert ⟨"Errors", "true"⟩] else []

def updates (r : ResponseTime) : List CounterUpdate :=
  r.tagSets.map fun tags => ⟨seriesName, tags, r.value, 1, true⟩

end ResponseTime

def CounterTable.recordResponse (t : CounterTable) (r : ResponseTime) : CounterTable :=
  t.recordAll r.updates

end SpanMetrics
