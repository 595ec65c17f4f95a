import DeskCalculator.Decimal.Shortest
import DeskCalculator.Decimal.Layout

/-!
How numbers are written. A number has a full text, which identifies it and shows that it is a fraction
by a point or an exponent; a result is displayed more plainly, without the point where it is an integer
all of whose digits are certain.
-/
set_option autoImplicit false

namespace DeskCalculator

open Float.Model (UnpackedFloat)

def exactIntegerLimit : Nat := Nat.pow 10 16

def signed (s : UnpackedFloat.Sign) (text : List Char) : List Char :=
  match s with
  | .negative => '-' :: text
  | .positive => text

def numberText (x : Float) : List Char :=
  match x.toModel.unpack with
  | .notANumber => ['n', 'a', 'n']
  | .infinity s => signed s ['i', 'n', 'f']
  | .zero s => signed s ['0', '.', '0']
  | .finite s m e _ => signed s (Decimal.shortest x.abs m e).text

def wholeValue? (mantissa : Nat) (exponent : Int) : Option Nat :=
  if 0 ≤ exponent then some (mantissa * Nat.pow 2 exponent.toNat)
  else if mantissa % Nat.pow 2 (-exponent).toNat = 0 then
    some (mantissa / Nat.pow 2 (-exponent).toNat)
  else none

/-- The sign and the magnitude of a number that is displayed as an integer. Zero has no sign. -/
def displayedInteger? (x : Float) : Option (UnpackedFloat.Sign × Nat) :=
  match x.toModel.unpack with
  | .zero _ => some (.positive, 0)
  | .finite s m e _ =>
    match wholeValue? m e with
    | some n => if n < exactIntegerLimit then some (s, n) else none
    | none => none
  | _ => none

def displayText (x : Float) : List Char :=
  match displayedInteger? x with
  | some (s, n) => signed s (Nat.toDigits 10 n)
  | none => numberText x

end DeskCalculator
