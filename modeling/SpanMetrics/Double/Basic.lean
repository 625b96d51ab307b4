/-!
# Doubles

A binary floating-point number of 64 bits, kept as its bits so that two doubles are equal exactly
when they are written the same. Arithmetic on NaNs is spelled out: a NaN operand comes through with
its sign and payload, the second of two, and a sum that has no value is the NaN with the sign bit
set.
-/
namespace SpanMetrics

structure Double where
  bits : UInt64
deriving DecidableEq, Repr, Inhabited

namespace Double

/-- One more than the largest fraction field. -/
def fractionLimit : Nat := 0x10000000000000

def signBit : Nat := 0x8000000000000000

/-- The exponent field of infinities and NaNs. -/
def topExponent : Nat := 2047

def isNegative (x : Double) : Bool := signBit ≤ x.bits.toNat

def exponentField (x : Double) : Nat := x.bits.toNat / fractionLimit % 2048

def fractionField (x : Double) : Nat := x.bits.toNat % fractionLimit

def isNaN (x : Double) : Bool := x.exponentField == topExponent && x.fractionField != 0

def isInfinite (x : Double) : Bool := x.exponentField == topExponent && x.fractionField == 0

/-- The double with this sign whose other 63 bits are the number. -/
def ofMagnitude (negative : Bool) (magnitude : Nat) : Double :=
  ⟨.ofNat ((if negative then signBit else 0) + magnitude)⟩

def zero : Double := ⟨0⟩

def infinity (negative : Bool) : Double := ofMagnitude negative (topExponent * fractionLimit)

def nan (negative : Bool) : Double :=
  ofMagnitude negative (topExponent * fractionLimit + fractionLimit / 2)

/-- A NaN with its first fraction bit set. -/
def quiet (x : Double) : Double := ⟨x.bits ||| 0x0008000000000000⟩

/-- The sum, rounded to nearest. -/
def add (x y : Double) : Double :=
  if y.isNaN then y.quiet
  else if x.isNaN then x.quiet
  else
    let sum := Float.ofBits x.bits + Float.ofBits y.bits
    if sum.isNaN then nan true else ⟨sum.toBits⟩

instance : Add Double := ⟨add⟩

end Double
end SpanMetrics
