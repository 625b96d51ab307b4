import SpanMetrics.Double.Basic

/-!
# Rounding to doubles

The double nearest to a quotient of natural numbers, by exact integer arithmetic. Below the normal
range the grid stops getting finer, above the largest double there is only infinity, and a quotient
halfway between two doubles goes to the one with the even last bit.
-/
namespace SpanMetrics.Double

/-- The whole number nearest to `num / den`, an even one if two are. -/
def roundHalfEven (num den : Nat) : Nat :=
  let whole := num / den
  let rest := num % den
  if 2 * rest < den then whole
  else if den < 2 * rest then whole + 1
  else whole + whole % 2

/-- The exponent of the largest power of two that is not above `num / den`. -/
def binaryExponent (num den : Nat) : Int :=
  let guess : Int := (Nat.log2 num : Int) - Nat.log2 den
  if den <<< guess.toNat ≤ num <<< (-guess).toNat then guess else guess - 1

/-- The 63 low bits of the double nearest to `num / den`. The step of the grid is
`2 ^ (step - 1074)`, and adding the rounded multiple to the shifted step carries into the exponent
field by itself. -/
def nearestMagnitude (num den : Nat) : Nat :=
  if num = 0 then 0
  else
    let step := (binaryExponent num den + 1022).toNat
    let multiple := roundHalfEven (num <<< 1074) (den <<< step)
    min (step * fractionLimit + multiple) (topExponent * fractionLimit)

def ofRatio (negative : Bool) (num den : Nat) : Double :=
  ofMagnitude negative (nearestMagnitude num den)

def ofNat (n : Nat) : Double := ofRatio false n 1

example : ofNat 1 = ⟨0x3FF0000000000000⟩ := by decide +kernel
example : ofNat 0x20000000000001 = ofNat 0x20000000000000 := by decide +kernel
example : ofRatio true 1 10 = ⟨0xBFB999999999999A⟩ := by decide +kernel

end SpanMetrics.Double
