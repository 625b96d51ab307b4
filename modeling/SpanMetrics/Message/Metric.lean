import SpanMetrics.Bson.Value
import SpanMetrics.Double.Decimal

/-!
# Metrics

A named value of one of three number types.
-/
namespace SpanMetrics

inductive MetricValue where
  | int32 (n : Int32)
  | int64 (n : Int64)
  | double (x : Double)
deriving DecidableEq, Repr

namespace MetricValue

def text : MetricValue → String
  | int32 n => toString n.toInt
  | int64 n => toString n.toInt
  | double x => x.text

def toBson : MetricValue → Bson.Value
  | int32 n => .int32 n
  | int64 n => .int64 n
  | double x => .double x

end MetricValue

/-- A metric that the running program supplies. -/
structure RuntimeMetric where
  name : String
  value : MetricValue
deriving DecidableEq, Repr

def MetricValue.document (name : String) (value : MetricValue) : Bson.Value :=
  .document [("name", .string name), ("value", value.toBson)]

end SpanMetrics
