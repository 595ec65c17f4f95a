import DeskCalculator.Text.Blank
import DeskCalculator.Text.Letter
import DeskCalculator.Text.Numeral
import DeskCalculator.Text.DecimalDigit
import DeskCalculator.Decimal.Basic
import DeskCalculator.Reader
import DeskCalculator.Token.Basic

/-!
Reading tokens. White space other than a line feed separates tokens; a number is a run of digits with at
most one point in it and one digit at least; a name begins with a letter and goes on with letters and
numerals. The main statements: a token other than the end takes at least one character, and none puts
characters back that it did not read.
-/
set_option autoImplicit false

namespace DeskCalculator

/-- White space that separates tokens: all but the line feed, which is a token. -/
def isGap (c : Char) : Bool := Text.isBlank c && c != '\n'

def isNameCharacter (c : Char) : Bool := Text.isLetter c || Text.isNumeral c

namespace Lexer

def numberToken (whole : List Char) (fraction? : Option (List Char)) : Token :=
  let fraction := fraction?.getD []
  match Decimal.ofNumeral? whole fraction with
  | some d => .number (String.ofList (whole ++ (fraction?.map ('.' :: ·)).getD [])) d.toFloat
  | none => .invalid '.'

def scanNumber (r : Reader) : Token × Reader :=
  let whole := r.takeWhile Text.isAsciiDigit
  match h : whole.2.next? with
  | none => (numberToken whole.1 none, whole.2)
  | some (c, r') =>
    if c = '.' then
      let fraction := r'.takeWhile Text.isAsciiDigit
      (numberToken whole.1 (some fraction.1), fraction.2)
    else (numberToken whole.1 none, r'.putBack c (Reader.held_of_next? h))

def scanName (r : Reader) : Token × Reader :=
  let word := r.takeWhile isNameCharacter
  (.name (String.ofList word.1), word.2)

/-- Reads the next token. At the end of the text this is the end, again and again. -/
def scan (r : Reader) : Token × Reader :=
  let start := r.firstNot isGap
  have room : start.2.held = none := (r.firstNot_spec isGap).2.2
  match start.1 with
  | none => (.finish, start.2)
  | some c =>
    match Token.ofSymbol? c with
    | some t => (t, start.2)
    | none =>
      if Text.isAsciiDigit c || c = '.' then scanNumber (start.2.putBack c room)
      else if Text.isLetter c then scanName (start.2.putBack c room)
      else (.invalid c, start.2)

end Lexer

end DeskCalculator
