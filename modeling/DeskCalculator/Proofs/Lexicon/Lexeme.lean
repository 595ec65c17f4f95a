import DeskCalculator.Lexer

set_option autoImplicit false

namespace DeskCalculator

def symbolKinds : List (Char × TokenKind) :=
  [ ('+', .plus), ('-', .minus), ('*', .star), ('/', .slash), ('=', .equal), ('(', .bracketOpen),
    (')', .bracketClose), (';', .exprEnd), ('\n', .exprEnd)]

structure Token.Shows (t : Token) (k : TokenKind) (cs : List Char) (x? : Option Float)
    (e? : Option Report) : Prop where
  kind : t.kind = k
  lexeme : t.lexeme.toList = cs
  number? : t.number? = x?
  report? : t.report? = e?

/-- Digits, with one point among them at most, and one digit at least. -/
structure IsNumeral (cs : List Char) : Prop where
  digit_or_point : ∀ c ∈ cs, Text.isAsciiDigit c = true ∨ c = '.'
  point : cs.count '.' ≤ 1
  digit : ∃ c ∈ cs, Text.isAsciiDigit c = true

def Decimal.ofLexeme? (cs : List Char) : Option Decimal :=
  ofNumeral? (cs.takeWhile (· != '.')) (cs.dropWhile (· != '.')).tail

def NotNext (p : Char → Bool) (rest : List Char) : Prop := ∀ c ∈ rest.head?, p c = false

/-- The token may stand before the rest of a text. A number and a name end only where they cannot be
extended; a point and a character that begin nothing stand for a mistake each. -/
inductive Token.Stands (t : Token) (rest : List Char) : Prop
  | symbol {c : Char} {k : TokenKind} : (c, k) ∈ symbolKinds → t.Shows k [c] none none →
      t.Stands rest
  | number {cs : List Char} {d : Decimal} : IsNumeral cs → NotNext Text.isAsciiDigit rest →
      ('.' ∉ cs → NotNext (· == '.') rest) → Decimal.ofLexeme? cs = some d →
      t.Shows .number cs (some d.toFloat) none → t.Stands rest
  | name {c : Char} {cs : List Char} : Text.isLetter c = true →
      (∀ d ∈ cs, isNameCharacter d = true) → NotNext isNameCharacter rest →
      t.Shows .name (c :: cs) none none → t.Stands rest
  | badNumber : NotNext Text.isAsciiDigit rest →
      t.Shows .exprEnd ['.'] none (some ⟨.lexical, "bad number '.'"⟩) → t.Stands rest
  | badToken {c : Char} : isGap c = false → (∀ k, (c, k) ∉ symbolKinds) →
      Text.isAsciiDigit c = false → c ≠ '.' → Text.isLetter c = false →
      t.Shows .exprEnd [c] none (some ⟨.lexical, "bad token " ++ String.ofList (Text.quoted [c])⟩) →
      t.Stands rest

theorem Token.eq_of_shows {t u : Token} {k : TokenKind} {cs : List Char} {x? : Option Float}
    {e? : Option Report} (ht : t.Shows k cs x? e?) (hu : u.Shows k cs x? e?) : t = u := by
  have hk := ht.kind.trans hu.kind.symm
  have hl := String.toList_inj.1 (ht.lexeme.trans hu.lexeme.symm)
  have hx := ht.number?.trans hu.number?.symm
  have he := ht.report?.trans hu.report?.symm
  cases t <;> cases u <;> simp_all [Token.kind, lexeme, number?, report?, cause?]

end DeskCalculator
