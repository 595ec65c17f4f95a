import DeskCalculator.ErrorLog

/-!
Tokens. A character that begins no token, and a point that belongs to no number, become a token of their
own; it ends the statement, as a separator does, and carries the report of the mistake.
-/
set_option autoImplicit false

namespace DeskCalculator

inductive Token
  | finish
  | number (digits : String) (value : Float)
  | name (id : String)
  | plus
  | minus
  | star
  | slash
  | equal
  | bracketOpen
  | bracketClose
  | semicolon
  | newline
  | invalid (c : Char)
  deriving DecidableEq

namespace Token

def kind : Token → TokenKind
  | .finish => .finish
  | .number _ _ => .number
  | .name _ => .name
  | .plus => .plus
  | .minus => .minus
  | .star => .star
  | .slash => .slash
  | .equal => .equal
  | .bracketOpen => .bracketOpen
  | .bracketClose => .bracketClose
  | .semicolon | .newline | .invalid _ => .exprEnd

def lexeme : Token → String
  | .finish => ""
  | .number digits _ => digits
  | .name id => id
  | .plus => "+"
  | .minus => "-"
  | .star => "*"
  | .slash => "/"
  | .equal => "="
  | .bracketOpen => "("
  | .bracketClose => ")"
  | .semicolon => ";"
  | .newline => "\n"
  | .invalid c => String.singleton c

def number? : Token → Option Float
  | .number _ value => some value
  | _ => none

/-- What is wrong with a token: a point was to begin a number, any other character a token. -/
def cause? : Token → Option Cause
  | .invalid c => some (if c = '.' then .badNumber else .badToken c)
  | _ => none

def report? (t : Token) : Option Report := t.cause?.map Cause.report

def isBoundary (t : Token) : Bool := t.kind = .exprEnd || t.kind = .finish

def text (t : Token) : String := "<" ++ t.kind.label ++ ">" ++ t.lexeme

def ofSymbol? : Char → Option Token
  | '+' => some .plus
  | '-' => some .minus
  | '*' => some .star
  | '/' => some .slash
  | '=' => some .equal
  | '(' => some .bracketOpen
  | ')' => some .bracketClose
  | ';' => some .semicolon
  | '\n' => some .newline
  | _ => none

theorem ne_finish_of_isBoundary {t : Token} (h : t.isBoundary = false) : t ≠ .finish := by
  intro ht
  simp [ht, isBoundary, kind] at h

theorem report?_of_not_boundary {t : Token} (h : t.isBoundary = false) : t.report? = none := by
  cases t <;> first | rfl | simp [isBoundary, kind] at h

theorem isBoundary_of_report? {t : Token} {r : Report} (h : t.report? = some r) :
    t.isBoundary = true := by
  cases hb : t.isBoundary with
  | true => rfl
  | false => simp [report?_of_not_boundary hb] at h

end Token

def ErrorLog.note (l : ErrorLog) (t : Token) : ErrorLog :=
  match t.report? with
  | some r => l.add r
  | none => l

end DeskCalculator
