set_option autoImplicit false

namespace DeskCalculator

/-- The kinds of tokens. A statement ends at the kind `exprEnd`, the input at the kind `finish`. -/
inductive TokenKind
  | finish
  | number
  | name
  | plus
  | minus
  | star
  | slash
  | equal
  | bracketOpen
  | bracketClose
  | exprEnd
  deriving DecidableEq, Repr

def TokenKind.label : TokenKind → String
  | .finish => "END"
  | .number => "NUMBER"
  | .name => "NAME"
  | .plus => "PLUS"
  | .minus => "MINUS"
  | .star => "STAR"
  | .slash => "SLASH"
  | .equal => "EQUAL"
  | .bracketOpen => "BRACKET_OPEN"
  | .bracketClose => "BRACKET_CLOSE"
  | .exprEnd => "EXPR_END"

end DeskCalculator
