import DeskCalculator.Decimal.Basic

set_option autoImplicit false

namespace DeskCalculator.Decimal

def plainFrom : Int := -4

def plainBelow : Int := 16

def exponentText (e : Int) : List Char :=
  let ds := Nat.toDigits 10 e.natAbs
  'e' :: (if e < 0 then '-' else '+') :: (List.replicate (2 - ds.length) '0' ++ ds)

/-- The digits of a positive number with the point after the first `places` of them. Where there are
fewer digits zeros follow, and `places ≤ 0` puts zeros in front. -/
def plainText (ds : List Char) (places : Int) : List Char :=
  if places ≤ 0 then '0' :: '.' :: (List.replicate (-places).toNat '0' ++ ds)
  else if ds.length ≤ places.toNat then
    ds ++ List.replicate (places.toNat - ds.length) '0' ++ ['.', '0']
  else ds.take places.toNat ++ '.' :: ds.drop places.toNat

def scientificText (ds : List Char) (e : Int) : List Char :=
  match ds with
  | [] => []
  | [d] => d :: exponentText e
  | d :: rest => d :: '.' :: (rest ++ exponentText e)

def text (d : Decimal) : List Char :=
  let ds := Nat.toDigits 10 d.digits
  let e := d.exponent + ds.length - 1
  if plainFrom ≤ e ∧ e < plainBelow then plainText ds (e + 1) else scientificText ds e

end DeskCalculator.Decimal
