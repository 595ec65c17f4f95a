import DeskCalculator.Text.Printable

/-!
Quoted text: a text between apostrophes, in which the characters that do not show are written by their
code. Double quotes take the place of the apostrophes where the text holds an apostrophe and no double
quote, so that the apostrophe may stand as it is.
-/
set_option autoImplicit false

namespace DeskCalculator.Text

def apostrophe : Char := '\x27'

def doubleQuote : Char := '\x22'

def backslash : Char := '\x5c'

def hexDigit (n : Nat) : Char := Nat.digitChar (n % 16)

def hexadecimal : (width n : Nat) → List Char
  | 0, _ => []
  | w + 1, n => hexadecimal w (n / 16) ++ [hexDigit n]

/-- A character by its code, in the shortest of the three forms that holds it. -/
def codeForm (c : Char) : List Char :=
  if c.toNat ≤ 0xff then backslash :: 'x' :: hexadecimal 2 c.toNat
  else if c.toNat ≤ 0xffff then backslash :: 'u' :: hexadecimal 4 c.toNat
  else backslash :: 'U' :: hexadecimal 8 c.toNat

def escape (mark c : Char) : List Char :=
  if c = mark || c = backslash then [backslash, c]
  else if c = '\n' then [backslash, 'n']
  else if c = '\r' then [backslash, 'r']
  else if c = '\t' then [backslash, 't']
  else if isPrintable c then [c]
  else codeForm c

def quoteMark (s : List Char) : Char :=
  if s.contains apostrophe && !s.contains doubleQuote then doubleQuote else apostrophe

def quoted (s : List Char) : List Char :=
  quoteMark s :: (s.flatMap (escape (quoteMark s)) ++ [quoteMark s])

end DeskCalculator.Text
