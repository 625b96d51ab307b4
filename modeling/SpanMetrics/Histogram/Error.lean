/-!
# Histogram errors

What can go wrong with a latency histogram, and how it is told.
-/
namespace SpanMetrics

inductive HistogramError where
  /-- The layout asked for does not exist. -/
  | creation (cause : String)
  /-- The value lies beyond the last bucket. -/
  | record (value : Nat)
  /-- The counts have no wire form. -/
  | serialize (cause : String)
  /-- The wire form could not be compressed. -/
  | compress (cause : String)
deriving DecidableEq, Repr

def HistogramError.message : HistogramError → String
  | creation cause => "Invalid histogram configuration: " ++ cause
  | record value => "value to large to record: " ++ toString value
  | serialize cause => "Failed to serialize histogram: " ++ cause
  | compress cause => "Failed to compress histogram: " ++ cause

end SpanMetrics
