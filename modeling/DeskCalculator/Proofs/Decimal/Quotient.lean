import DeskCalculator.Display

set_option autoImplicit false

namespace DeskCalculator

theorem Quotient.den_pos (m : Nat) (e : Int) : 0 < (ofBinary m e).den :=
  Nat.pow_pos (by decide)

theorem Quotient.num_pos {m : Nat} (hm : 0 < m) (e : Int) : 0 < (ofBinary m e).num :=
  Nat.mul_pos hm (Nat.pow_pos (by decide))

theorem wholeValue?_eq (m : Nat) (e : Int) :
    wholeValue? m e =
      let v := Quotient.ofBinary m e
      if v.num % v.den = 0 then some (v.num / v.den) else none := by
  unfold wholeValue? Quotient.ofBinary
  by_cases he : 0 ≤ e
  · have hd : Nat.pow 2 (-e).toNat = 1 := by rw [Int.toNat_of_nonpos (by omega)]
    simp only [if_pos he, hd, Nat.mod_one, Nat.div_one, if_true]
  · have hn : Nat.pow 2 e.toNat = 1 := by rw [Int.toNat_of_nonpos (by omega)]
    simp only [if_neg he, hn, Nat.mul_one]

end DeskCalculator
