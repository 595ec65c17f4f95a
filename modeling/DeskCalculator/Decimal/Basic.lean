set_option autoImplicit false

namespace DeskCalculator

/-- The number `digits · 10 ^ exponent`. -/
structure Decimal where
  digits : Nat
  exponent : Int
  deriving DecidableEq

namespace Decimal

/-- The nearest number of binary64; halfway between two, the one whose last bit is zero. -/
def toFloat (d : Decimal) : Float :=
  Float.ofScientific d.digits (d.exponent < 0) d.exponent.natAbs

def trim (d : Decimal) : Decimal :=
  if _h : d.digits ≠ 0 ∧ d.digits % 10 = 0 then
    trim { digits := d.digits / 10, exponent := d.exponent + 1 }
  else d
termination_by d.digits
decreasing_by exact Nat.div_lt_self (by omega) (by decide)

def ofNumeral? (whole fraction : List Char) : Option Decimal :=
  if whole.isEmpty && fraction.isEmpty then none
  else some
    { digits := Nat.ofDigitChars 10 (whole ++ fraction) 0, exponent := -(fraction.length : Int) }

end Decimal

end DeskCalculator
