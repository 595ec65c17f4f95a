import DeskCalculator.Token.Basic

set_option autoImplicit false

namespace DeskCalculator

inductive Operator
  | add
  | subtract
  | multiply
  | divide
  deriving DecidableEq, Repr

/-- The value of an operation. A divisor may not be zero, whatever its sign. -/
def Operator.apply : Operator → Float → Float → Except Cause Float
  | .add, x, y => .ok (x + y)
  | .subtract, x, y => .ok (x - y)
  | .multiply, x, y => .ok (x * y)
  | .divide, x, y => if y == 0 then .error .divideByZero else .ok (x / y)

/-- A sum has products for its parts, and a product primaries. -/
inductive Level
  | sum
  | product
  deriving DecidableEq, Repr

def Level.operator? : Level → Token → Option Operator
  | .sum, .plus => some .add
  | .sum, .minus => some .subtract
  | .product, .star => some .multiply
  | .product, .slash => some .divide
  | _, _ => none

theorem Level.isBoundary_of_operator? {l : Level} {t : Token} {op : Operator}
    (h : l.operator? t = some op) : t.isBoundary = false := by
  cases l <;> cases t <;> simp_all [operator?, Token.isBoundary, Token.kind]

theorem Level.operator?_of_isBoundary {l : Level} {t : Token} (h : t.isBoundary = true) :
    l.operator? t = none := by
  cases ho : l.operator? t with
  | none => rfl
  | some op =>
    have hb := isBoundary_of_operator? ho
    rw [h] at hb
    contradiction

end DeskCalculator
