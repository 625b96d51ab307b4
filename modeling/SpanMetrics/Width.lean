/-!
# Integer widths

The ranges of the integer types that numbers are read into and written from.
-/
namespace SpanMetrics.Width

/-- One more than the largest unsigned number of 8 bits. -/
def limit8 : Nat := 0x100

def limit32 : Nat := 0x100000000

def limit64 : Nat := 0x10000000000000000

/-- One more than the largest signed number of 32 bits. -/
def half32 : Nat := 0x80000000

def half64 : Nat := 0x8000000000000000

/-- Whether a number is a signed number of 32 bits. -/
def fits32 (n : Int) : Bool := -(half32 : Int) ≤ n && n < half32

/-- The largest signed number of 32 bits. -/
def largest32 : Int32 := .ofNat (half32 - 1)

/-- The nearest signed number of 64 bits. -/
def saturate64 (n : Int) : Int64 := .ofInt (max (-(half64 : Int)) (min n (half64 - 1)))

end SpanMetrics.Width
