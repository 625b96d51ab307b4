import SpanMetrics.Transaction.Registry

/-!
# Classifying requests

How a request is reported: under its own name, under the name for all that the registry refused,
or under the name for requests that have none. A name comes before a path, and a request that is
called like one without a name is treated like one: it is never offered to the registry.
-/
namespace SpanMetrics

inductive Classification where
  | named (name : String)
  | other
  | unknown
deriving DecidableEq, Repr

/-- The name under which the request is counted. -/
def Classification.transaction : Classification → String
  | named name => name
  | other => Transaction.otherName
  | unknown => Transaction.unknownName

/-- The name of a request, if it has one or has a path to derive it from. -/
def Transaction.derived? (transaction path : String) : Option String :=
  if transaction ≠ "" then some transaction
  else if path ≠ "" then some (ofPath path)
  else none

/-- The name of a request, the one for requests without a name included. -/
def Transaction.derived (transaction path : String) : String :=
  (derived? transaction path).getD unknownName

def Registry.classify (r : Registry) (transaction path : String) :
    Logged (Classification × Registry) := do
  let name := Transaction.derived transaction path
  if name = Transaction.unknownName then return (.unknown, r)
  else
    let (taken, r) ← r.offer name
    return (if taken then .named name else .other, r)

end SpanMetrics
