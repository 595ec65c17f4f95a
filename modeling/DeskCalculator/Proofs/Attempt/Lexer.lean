import DeskCalculator.Operator
import DeskCalculator.Proofs.Lexicon.Scan

set_option autoImplicit false

namespace DeskCalculator

inductive Breakdown
  | quotientByZero
  | malformedNumeral (text : List Char)
  | integerOfInfinity
  | integerOfNaN
  | numberMissing
  | standstill
  deriving DecidableEq, Repr

/-- A computation that comes to a value or breaks down. -/
abbrev Attempt (α : Type) := Except Breakdown α

def isNumeral (cs : List Char) : Bool :=
  cs.all (fun c => Text.isAsciiDigit c || c = '.') && cs.count '.' ≤ 1 && cs.any Text.isAsciiDigit

theorem isNumeral_iff {cs : List Char} : isNumeral cs = true ↔ IsNumeral cs := by
  constructor
  · intro h
    simp only [isNumeral, Bool.and_eq_true, List.all_eq_true, Bool.or_eq_true, decide_eq_true_eq,
      List.any_eq_true] at h
    exact ⟨h.1.1, h.1.2, h.2⟩
  · intro h
    simp only [isNumeral, Bool.and_eq_true, List.all_eq_true, Bool.or_eq_true, decide_eq_true_eq,
      List.any_eq_true]
    exact ⟨⟨h.digit_or_point, h.point⟩, h.digit⟩

namespace Attempt

def quotient (x y : Float) : Attempt Float :=
  if y == 0 then throw .quotientByZero else pure (x / y)

def number (text : List Char) : Attempt Float :=
  if isNumeral text then
    match Decimal.ofLexeme? text with
    | some d => pure d.toFloat
    | none => throw (.malformedNumeral text)
  else throw (.malformedNumeral text)

theorem number_of_isNumeral {text : List Char} {d : Decimal} (h : IsNumeral text)
    (hd : Decimal.ofLexeme? text = some d) : number text = pure d.toFloat := by
  simp only [number, isNumeral_iff.2 h, if_true, hd]

example : number ['.'] = throw (.malformedNumeral ['.']) := rfl

end Attempt

/-- The value of an operation. That a divisor is zero is found before anything is divided. -/
def Operator.attempt : Operator → Float → Float → Attempt (Except Cause Float)
  | .add, x, y => pure (.ok (x + y))
  | .subtract, x, y => pure (.ok (x - y))
  | .multiply, x, y => pure (.ok (x * y))
  | .divide, x, y =>
    if y == 0 then pure (.error .divideByZero)
    else do return .ok (← Attempt.quotient x y)

theorem Operator.attempt_eq (op : Operator) (x y : Float) :
    op.attempt x y = pure (op.apply x y) := by
  cases op with
  | divide =>
    simp only [attempt, apply, Attempt.quotient]
    split <;> rfl
  | _ => rfl

/-- A token whose number and report may be there or not, whatever its kind is. -/
structure LooseToken where
  kind : TokenKind
  lexeme : String
  number? : Option Float := none
  report? : Option Report := none
  deriving DecidableEq

def LooseToken.number (t : LooseToken) : Attempt Float :=
  match t.number? with
  | some x => pure x
  | none => throw .numberMissing

def Token.loose (t : Token) : LooseToken where
  kind := t.kind
  lexeme := t.lexeme
  number? := t.number?
  report? := t.report?

theorem Token.Shows.loose_eq {t : Token} {k : TokenKind} {cs : List Char} {x? : Option Float}
    {e? : Option Report} (h : t.Shows k cs x? e?) : t.loose = ⟨k, String.ofList cs, x?, e?⟩ := by
  have hl : t.lexeme = String.ofList cs := String.toList_inj.1 (by simp [h.lexeme])
  simp only [loose, h.kind, hl, h.number?, h.report?]

/-- Puts a character back. If there is no room for it, the one that was put back before is lost. -/
def Reader.hold (r : Reader) (c : Char) : Reader := { r with held := some c }

namespace Lexer

def mistake (c : Cause) (lexeme : String) : LooseToken where
  kind := .exprEnd
  lexeme := lexeme
  report? := some c.report

def attemptNumberToken (text : List Char) : Attempt LooseToken :=
  if text = ['.'] then pure (mistake .badNumber (String.ofList text))
  else do
    let x ← Attempt.number text
    return { kind := .number, lexeme := String.ofList text, number? := some x }

def attemptScanNumber (r : Reader) : Attempt (LooseToken × Reader) :=
  let whole := r.takeWhile Text.isAsciiDigit
  match whole.2.next? with
  | none => do return (← attemptNumberToken whole.1, whole.2)
  | some (c, r') =>
    if c = '.' then
      let fraction := r'.takeWhile Text.isAsciiDigit
      do return (← attemptNumberToken (whole.1 ++ '.' :: fraction.1), fraction.2)
    else do return (← attemptNumberToken whole.1, r'.hold c)

def attemptScan (r : Reader) : Attempt (LooseToken × Reader) :=
  let start := r.firstNot isGap
  match start.1 with
  | none => pure ({ kind := .finish, lexeme := "" }, start.2)
  | some c =>
    match Token.ofSymbol? c with
    | some t => pure ({ kind := t.kind, lexeme := String.singleton c }, start.2)
    | none =>
      if Text.isAsciiDigit c || c = '.' then attemptScanNumber (start.2.hold c)
      else if Text.isLetter c then
        let word := (start.2.hold c).takeWhile isNameCharacter
        pure ({ kind := .name, lexeme := String.ofList word.1 }, word.2)
      else pure (mistake (.badToken c) (String.singleton c), start.2)

theorem attemptNumberToken_point : attemptNumberToken ['.'] = pure (Token.invalid '.').loose := rfl

theorem attemptNumberToken_of_shows {cs : List Char} {d : Decimal} {t : Token} (hn : IsNumeral cs)
    (hd : Decimal.ofLexeme? cs = some d) (ht : t.Shows .number cs (some d.toFloat) none) :
    attemptNumberToken cs = pure t.loose := by
  have hp : cs ≠ ['.'] := by
    rintro rfl
    obtain ⟨c, hc, hcd⟩ := hn.digit
    rw [List.mem_singleton.1 hc] at hcd
    exact absurd hcd (by decide)
  rw [attemptNumberToken, if_neg hp, Attempt.number_of_isNumeral hn hd, ht.loose_eq]
  rfl

theorem attemptNumberToken_whole {whole : List Char}
    (hw : ∀ c ∈ whole, Text.isAsciiDigit c = true) (hn : whole ≠ []) :
    attemptNumberToken whole = pure (numberToken whole none).loose := by
  obtain ⟨d, hd, ht⟩ := shows_numberToken_whole hw hn
  exact attemptNumberToken_of_shows (isNumeral_whole hw hn) hd ht

theorem attemptNumberToken_fraction {whole fraction : List Char}
    (hw : ∀ c ∈ whole, Text.isAsciiDigit c = true)
    (hf : ∀ c ∈ fraction, Text.isAsciiDigit c = true) :
    attemptNumberToken (whole ++ '.' :: fraction) =
      pure (numberToken whole (some fraction)).loose := by
  by_cases hn : whole ≠ [] ∨ fraction ≠ []
  · obtain ⟨d, hd, ht⟩ := shows_numberToken_point hw hn
    exact attemptNumberToken_of_shows (isNumeral_point hw hf hn) hd ht
  · simp only [ne_eq, not_or, not_not] at hn
    obtain ⟨rfl, rfl⟩ := hn
    exact attemptNumberToken_point

theorem exists_next?_of_takeWhile_nil {r : Reader} {c : Char} {rest : List Char}
    (hr : r.pending = c :: rest) (hc : Text.isAsciiDigit c = true ∨ c = '.')
    (hn : (r.takeWhile Text.isAsciiDigit).1 = []) :
    ∃ r', (r.takeWhile Text.isAsciiDigit).2.next? = some ('.', r') := by
  obtain ⟨hw, hp⟩ := r.takeWhile_spec Text.isAsciiDigit
  have hcd : Text.isAsciiDigit c = false := by
    rw [hw, hr, List.takeWhile_cons] at hn
    simpa using hn
  obtain rfl : c = '.' := hc.resolve_left (by simp [hcd])
  rw [hr, List.dropWhile_cons, if_neg (by simp [hcd])] at hp
  cases hs : (r.takeWhile Text.isAsciiDigit).2.next? with
  | none =>
    rw [Reader.next?_eq_none_iff.1 hs] at hp
    contradiction
  | some step =>
    have he := (Reader.pending_of_next? hs).symm.trans hp
    exact ⟨step.2, by rw [← (List.cons.inj he).1]⟩

/-- Behind a digit or a point no text is read as a number that is no numeral. -/
theorem attemptScanNumber_eq {r : Reader} {c : Char} {rest : List Char} (hr : r.pending = c :: rest)
    (hc : Text.isAsciiDigit c = true ∨ c = '.') :
    attemptScanNumber r = pure ((scanNumber r).map Token.loose id) := by
  have hd : ∀ (r : Reader), ∀ c ∈ (r.takeWhile Text.isAsciiDigit).1, Text.isAsciiDigit c = true := by
    intro r c hc
    rw [(r.takeWhile_spec Text.isAsciiDigit).1] at hc
    exact List.mem_takeWhile_imp hc
  have hp := exists_next?_of_takeWhile_nil hr hc
  unfold attemptScanNumber
  simp only
  split <;> rename_i hs
  · have hn : (r.takeWhile Text.isAsciiDigit).1 ≠ [] := by
      intro hn
      obtain ⟨r', hr'⟩ := hp hn
      simp [hs] at hr'
    rw [attemptNumberToken_whole (hd r) hn, scanNumber_of_none hs]
    rfl
  · rename_i c' r'
    rw [scanNumber_of_some hs]
    by_cases hcp : c' = '.'
    · subst hcp
      rw [if_pos rfl, if_pos rfl, attemptNumberToken_fraction (hd r) (hd r')]
      rfl
    · have hn : (r.takeWhile Text.isAsciiDigit).1 ≠ [] := by
        intro hn
        obtain ⟨r'', hr''⟩ := hp hn
        rw [hs] at hr''
        exact hcp (congrArg Prod.fst (Option.some.inj hr''))
      rw [if_neg hcp, if_neg hcp, attemptNumberToken_whole (hd r) hn]
      rfl

/-- Reading a token never breaks down. -/
theorem attemptScan_eq (r : Reader) : attemptScan r = pure ((scan r).map Token.loose id) := by
  unfold attemptScan scan
  simp only
  cases (r.firstNot isGap).1 with
  | none => rfl
  | some c =>
    simp only
    cases ht : Token.ofSymbol? c with
    | some t =>
      have hs := (Token.shows_of_ofSymbol? ht).2.loose_eq
      simp [hs]
    | none =>
      by_cases hd : (Text.isAsciiDigit c || c = '.') = true
      · simp only [if_pos hd]
        exact attemptScanNumber_eq (Reader.pending_putBack _ c (r.firstNot_spec isGap).2.2)
          (by simpa using hd)
      · simp only [if_neg hd]
        split
        · rfl
        · have hp : c ≠ '.' := by
            rintro rfl
            simp at hd
          have hs := (Token.shows_invalid hp).loose_eq
          simp [hs, mistake, Cause.report, Cause.kind, Cause.message]

end Lexer

end DeskCalculator
