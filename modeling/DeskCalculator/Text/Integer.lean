import DeskCalculator.Text.Blank
import DeskCalculator.Text.DecimalDigit
import DeskCalculator.Text.Quoted

/-!
Integers in decimal digits: how they are written, and how they are read. A reader takes digits of every
script, single low lines between digits, a sign, and white space around it all; it takes only so many
digits.
-/
set_option autoImplicit false

namespace DeskCalculator.Text

def integerText (n : Int) : List Char :=
  if n < 0 then '-' :: Nat.toDigits 10 n.natAbs else Nat.toDigits 10 n.natAbs

def integerDigitLimit : Nat := 4300

inductive IntegerFault
  | malformed
  | tooLong (digits : Nat)
  deriving DecidableEq, Repr

/-- The message shows at most so many characters of the text, its quotes among them. -/
def shownOfMalformed : Nat := 200

def IntegerFault.message (given : List Char) : IntegerFault → String
  | .malformed =>
    "invalid literal for int() with base 10: " ++ String.ofList ((quoted given).take shownOfMalformed)
  | .tooLong digits =>
    "Exceeds the limit (" ++ String.ofList (integerText integerDigitLimit) ++
      " digits) for integer string conversion: value has " ++ String.ofList (integerText digits) ++
      " digits; use sys.set_int_max_str_digits() to increase the limit"

/-- White space that may stand around an integer: all but the four information separators. -/
def isMargin (c : Char) : Bool := isBlank c && !(Nat.ble 0x1c c.toNat && Nat.ble c.toNat 0x1f)

def isDigitOrLine (c : Char) : Bool := (decimalDigit? c).isSome || c = '_'

/-- The digits of a text in which each low line has a digit on either side; `afterDigit` says whether
there is one before the text. -/
def separatedDigits? : (afterDigit : Bool) → List Char → Option (List Nat)
  | true, [] => some []
  | false, [] => none
  | afterDigit, c :: cs =>
    match decimalDigit? c with
    | some d => (separatedDigits? true cs).map (d :: ·)
    | none => if afterDigit && c = '_' then separatedDigits? false cs else none

def digitsValue (ds : List Nat) : Nat := ds.foldl (fun n d => 10 * n + d) 0

def splitSign : List Char → Bool × List Char
  | '-' :: cs => (true, cs)
  | '+' :: cs => (false, cs)
  | cs => (false, cs)

/-- Reads an integer. That there are too many digits is found before anything after them is looked at. -/
def readInteger (s : List Char) : Except IntegerFault Int :=
  let (negative, body) := splitSign (s.dropWhile isMargin)
  match separatedDigits? false (body.takeWhile isDigitOrLine) with
  | none => .error .malformed
  | some ds =>
    if integerDigitLimit < ds.length then .error (.tooLong ds.length)
    else if (body.dropWhile isDigitOrLine).all isMargin then
      .ok (if negative then -(digitsValue ds : Int) else digitsValue ds)
    else .error .malformed

end DeskCalculator.Text
