import DeskCalculator.Text.Quoted
import DeskCalculator.Token.Kind

set_option autoImplicit false

namespace DeskCalculator

inductive ErrorKind
  | lexical
  | syntactic
  | arithmetic
  | nesting
  deriving DecidableEq, Repr

structure Report where
  kind : ErrorKind
  message : String
  deriving DecidableEq, Repr

def Report.line (r : Report) : String := "error: " ++ r.message

inductive Cause
  | badNumber
  | badToken (c : Char)
  | primaryExpected
  | bracketExpected
  | unexpected (k : TokenKind)
  | divideByZero
  | nestedTooDeeply
  deriving DecidableEq, Repr

namespace Cause

def kind : Cause → ErrorKind
  | .badNumber | .badToken _ => .lexical
  | .primaryExpected | .bracketExpected | .unexpected _ => .syntactic
  | .divideByZero => .arithmetic
  | .nestedTooDeeply => .nesting

def message : Cause → String
  | .badNumber => "bad number '.'"
  | .badToken c => "bad token " ++ String.ofList (Text.quoted [c])
  | .primaryExpected => "primary expected"
  | .bracketExpected => "')' expected"
  | .unexpected k => "unexpected " ++ k.label
  | .divideByZero => "divide by 0"
  | .nestedTooDeeply => "expression nested too deeply"

def report (c : Cause) : Report where
  kind := c.kind
  message := c.message

end Cause

end DeskCalculator
