/-!
# Whole numbers in text

A whole number is an optional sign and at least one ASCII digit, nothing else; leading zeros do not
matter, and a number outside its range is no number. An unsigned number has no minus sign, not even
before a zero.
-/
namespace SpanMetrics.Numeral

/-- The value of a run of digits, `none` unless there are digits and only digits. -/
def digits? (cs : List Char) : Option Nat :=
  if cs.isEmpty || !cs.all Char.isDigit then none
  else some (cs.foldl (fun n c => 10 * n + (c.toNat - '0'.toNat)) 0)

/-- A number below `limit`. -/
def unsigned? (limit : Nat) (s : String) : Option Nat :=
  let body := match s.toList with
    | '+' :: rest => rest
    | cs => cs
  (digits? body).filter (· < limit)

/-- A number from `-limit` to below `limit`. -/
def signed? (limit : Nat) (s : String) : Option Int :=
  let value := match s.toList with
    | '-' :: rest => (digits? rest).map fun n => -(n : Int)
    | '+' :: rest => (digits? rest).map Int.ofNat
    | cs => (digits? cs).map Int.ofNat
  value.filter fun n => -(limit : Int) ≤ n && n < limit

end SpanMetrics.Numeral
