import DeskCalculator.Decimal.Basic

/-!
The fewest digits that identify a number. Of the decimals with one digit, then two, and so on, the two
neighbours of the number are tried; the first that a reader takes for the number is chosen, the nearer
one if it takes both.
-/
set_option autoImplicit false

namespace DeskCalculator

structure Quotient where
  num : Nat
  den : Nat

namespace Quotient

def ofBinary (mantissa : Nat) (exponent : Int) : Quotient where
  num := mantissa * Nat.pow 2 exponent.toNat
  den := Nat.pow 2 (-exponent).toNat

/-- The least `k` for which the quotient lies below `10 ^ k`. -/
def scale (v : Quotient) : Int :=
  if v.den ≤ v.num then (Nat.toDigits 10 (v.num / v.den)).length
  else 1 - ((Nat.toDigits 10 ((v.den - 1) / v.num)).length : Int)

def inUnits (v : Quotient) (g : Int) : Quotient where
  num := v.num * Nat.pow 10 (-g).toNat
  den := v.den * Nat.pow 10 g.toNat

end Quotient

namespace Decimal

/-- The neighbour of the quotient on the grid of the multiples of `10 ^ g` that is accepted: the nearer
one if both are, and the even one if both are as near. -/
def neighbour? (accepts : Decimal → Bool) (v : Quotient) (g : Int) : Option Decimal :=
  let u := v.inUnits g
  let below : Decimal := { digits := u.num / u.den, exponent := g }
  let above : Decimal := { digits := u.num / u.den + 1, exponent := g }
  match accepts below, accepts above with
  | false, false => none
  | true, false => some below
  | false, true => some above
  | true, true =>
    match compare (2 * (u.num % u.den)) u.den with
    | .lt => some below
    | .gt => some above
    | .eq => if below.digits % 2 = 0 then some below else some above

/-- The fewest digits that are accepted, at most seventeen; these always suffice to tell one number of
binary64 from the others. -/
def fewestDigits? (accepts : Decimal → Bool) (v : Quotient) : Option Decimal :=
  (List.range 17).findSome? fun n => neighbour? accepts v (v.scale - ((n : Nat) + 1 : Nat))

def ofBinary (mantissa : Nat) (exponent : Int) : Decimal :=
  if 0 ≤ exponent then { digits := mantissa * Nat.pow 2 exponent.toNat, exponent := 0 }
  else { digits := mantissa * Nat.pow 5 (-exponent).toNat, exponent }

/-- The decimal that stands for the finite positive number `mantissa · 2 ^ exponent`: the fewest digits
that are read back as `x`. -/
def shortest (x : Float) (mantissa : Nat) (exponent : Int) : Decimal :=
  let accepts := fun d : Decimal => decide (d.toFloat = x)
  ((fewestDigits? accepts (.ofBinary mantissa exponent)).getD (ofBinary mantissa exponent)).trim

end Decimal

end DeskCalculator
