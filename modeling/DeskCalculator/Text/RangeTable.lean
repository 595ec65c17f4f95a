/-!
Sets of characters given by ranges of code points. The tables in the modules beside this one list a
property of the Unicode standard, version 14.0; a lookup asks whether some range holds the character.
-/
set_option autoImplicit false

namespace DeskCalculator.Text

abbrev RangeTable := List (Nat × Nat)

def RangeTable.covers (t : RangeTable) (n : Nat) : Bool :=
  t.any fun r => Nat.ble r.1 n && Nat.ble n r.2

theorem RangeTable.covers_iff (t : RangeTable) (n : Nat) :
    t.covers n = true ↔ ∃ r ∈ t, r.1 ≤ n ∧ n ≤ r.2 := by
  simp [RangeTable.covers]

end DeskCalculator.Text
