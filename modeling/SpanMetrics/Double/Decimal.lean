import SpanMetrics.Double.Rounding
import SpanMetrics.Numeral

/-!
# Decimal forms of doubles

Reading: an optional sign, then digits with an optional point and an optional exponent, or the name
of an infinity or of NaN in any case; the result is the nearest double. Writing: the fewest digits
that read back to the same double, of several the nearest, always in positional notation.
-/
namespace SpanMetrics.Double

/-- A power of ten; it is one for an exponent that is not positive. -/
def tenTo (exponent : Int) : Nat := Nat.pow 10 exponent.toNat

/-- The double nearest to `digits * 10 ^ exponent`. An exponent far beyond the range of doubles is
settled without computing the power. -/
def ofDecimal (negative : Bool) (digits : Nat) (exponent : Int) : Double :=
  let size : Int := (Nat.toDigits 10 digits).length
  if digits = 0 ∨ size + exponent < -330 then ofMagnitude negative 0
  else if 330 < size + exponent then infinity negative
  else ofRatio negative (digits * tenTo exponent) (tenTo (-exponent))

/-- An exponent with an optional sign. -/
def exponent? : List Char → Option Int
  | '-' :: rest => (Numeral.digits? rest).map fun n => -(n : Int)
  | '+' :: rest => (Numeral.digits? rest).map Int.ofNat
  | rest => (Numeral.digits? rest).map Int.ofNat

/-- Digits with an optional point and an optional exponent. -/
def number? (negative : Bool) (cs : List Char) : Option Double := do
  let isMark := fun c => c == 'e' || c == 'E'
  let mantissa := cs.takeWhile (!isMark ·)
  let exponent ← match cs.dropWhile (!isMark ·) with
    | [] => some 0
    | _ :: rest => exponent? rest
  let whole := mantissa.takeWhile (· != '.')
  let fraction := (mantissa.dropWhile (· != '.')).drop 1
  let digits ← Numeral.digits? (whole ++ fraction)
  return ofDecimal negative digits (exponent - fraction.length)

def magnitude? (negative : Bool) (cs : List Char) : Option Double :=
  let name := cs.map Char.toLower
  if name = "inf".toList ∨ name = "infinity".toList then some (infinity negative)
  else if name = "nan".toList then some (nan negative)
  else number? negative cs

def read? (s : String) : Option Double :=
  match s.toList with
  | '-' :: rest => magnitude? true rest
  | '+' :: rest => magnitude? false rest
  | cs => magnitude? false cs

/-- Least `p` with `num / den < 10 ^ p`. -/
def decimalExponent (num den : Nat) : Int :=
  let guess := (binaryExponent num den * 30103).fdiv 100000
  let below := fun p : Int => decide (num * tenTo (-p) < den * tenTo p)
  if below guess then guess else if below (guess + 1) then guess + 1 else guess + 2

/-- The multiple of `10 ^ exponent` next to `num / den` that lies between `low / den` and
`high / den`, the nearer one if there are two and the upper one of two equally near. -/
def onGrid? (low num high den : Nat) (closed : Bool) (exponent : Int) : Option Nat :=
  let unit := den * tenTo exponent
  let scale := tenTo (-exponent)
  let inside := fun d : Nat =>
    if closed then low * scale ≤ d * unit && d * unit ≤ high * scale
    else low * scale < d * unit && d * unit < high * scale
  let down := num * scale / unit
  let up := down + 1
  match inside down, inside up with
  | true, true => some (if num * scale - down * unit < up * unit - num * scale then down else up)
  | true, false => some down
  | false, true => some up
  | false, false => none

/-- Digits and exponent of the shortest decimal that reads back as this finite double, which is not
zero. Every double is settled by seventeen digits. -/
def shortest (x : Double) : Nat × Int :=
  let m := if x.exponentField = 0 then x.fractionField else fractionLimit + x.fractionField
  let q : Int := (max x.exponentField 1 : Nat) - 1077
  let den := 1 <<< (-q).toNat
  let scaled := fun quarters : Nat => quarters <<< q.toNat
  let below := if x.fractionField = 0 ∧ 1 < x.exponentField then 1 else 2
  let top := decimalExponent (scaled (4 * m)) den
  let attempt := fun count : Nat =>
    (onGrid? (scaled (4 * m - below)) (scaled (4 * m)) (scaled (4 * m + 2)) den (m % 2 == 0)
      (top - count)).map fun d => if d = tenTo count then (1, top) else (d, top - (count : Int))
  ((List.range' 1 17).findSome? attempt).getD (m, 0)

/-- The digits of `d * 10 ^ exponent` with a point where one is needed. -/
def positional (d : Nat) (exponent : Int) : List Char :=
  let digits := Nat.toDigits 10 d
  if 0 ≤ exponent then digits ++ List.replicate exponent.toNat '0'
  else
    let places := (-exponent).toNat
    let padded := List.replicate (places + 1 - digits.length) '0' ++ digits
    padded.take (padded.length - places) ++ '.' :: padded.drop (padded.length - places)

def text (x : Double) : String :=
  let sign := if x.isNegative then ['-'] else []
  if x.isNaN then "NaN"
  else if x.isInfinite then .ofList (sign ++ "inf".toList)
  else if x.exponentField = 0 ∧ x.fractionField = 0 then .ofList (sign ++ ['0'])
  else
    let (d, exponent) := x.shortest
    .ofList (sign ++ positional d exponent)

end SpanMetrics.Double
