import DeskCalculator.Proofs.Lexicon.Joining
import DeskCalculator.Proofs.Session.Segment
import DeskCalculator.Text.Lines

set_option autoImplicit false

namespace DeskCalculator.Session

theorem evaluateTokens_append {ts : List Token} {e : Token} (hts : .finish ∉ ts) (hf : e ≠ .finish)
    (he : e.isBoundary = true) (hr : e.report? = none) (us : List Token) (s : Session) :
    s.evaluateTokens (ts ++ e :: us) =
      ((s.evaluateTokens ts).1 ++ ((s.evaluateTokens ts).2.evaluateTokens us).1,
        ((s.evaluateTokens ts).2.evaluateTokens us).2) := by
  induction ts using segments_induction generalizing s with
  | unended ts hi =>
    by_cases hn : ts = []
    · subst hn
      rw [s.evaluateTokens_nil, List.nil_append, s.evaluateTokens_separator us hf he hr]
      rfl
    · -- The separator does for the last statement what the end of the tokens does.
      obtain ⟨o, m, hs, -⟩ := Desk.exists_statement_eq s.levels s.store hi he
      have h₁ := s.evaluateTokens_statement hn hi (hs [] rfl hr.symm)
      have h₂ := s.evaluateTokens_statement hn hi (hs (e :: us) he rfl)
      rw [List.append_nil, List.tail_nil, evaluateTokens_nil] at h₁
      rw [h₁, h₂]
      rfl
  | ended ts d rest hi hd ih =>
    simp only [List.mem_append, List.mem_cons, not_or] at hts
    have hg : ∀ us, ts ++ d :: us = (Segment.ended ts d hi hd).tokens ++ us := by
      simp [Segment.tokens, Segment.ended]
    rw [List.append_assoc, List.cons_append, hg, hg]
    cases ha : (Segment.ended ts d hi hd).isAnswered with
    | false =>
      have hm : .finish ∉ (Segment.ended ts d hi hd).tokens := by
        simp [Segment.tokens, Segment.ended, hts.1, hts.2.1]
      rw [Segment.evaluateTokens_append_of_not_answered s ha hm,
        Segment.evaluateTokens_append_of_not_answered s ha hm]
      exact ih hts.2.2 s
    | true =>
      obtain ⟨o, s₁, -, hs, -⟩ := Segment.exists_evaluateTokens_append s ha
      rw [hs _ (by simp [Segment.ended]), hs _ (by simp [Segment.ended]), ih hts.2.2 s₁]
      rfl

theorem evaluate_append_symbol {c : Char} {e : Token} (he : Token.ofSymbol? c = some e)
    (hb : e.isBoundary = true) (hc : EndsTokens c) (s : Session) (a b : List Char) :
    s.evaluate (a ++ c :: b) =
      ((s.evaluate a).1 ++ ((s.evaluate a).2.evaluate b).1, ((s.evaluate a).2.evaluate b).2) := by
  simp only [evaluate_eq_evaluateTokens, tokenize_append_symbol he hc]
  exact evaluateTokens_append (Lexer.finish_not_mem_tokens (.ofText a))
    (Lexer.ofSymbol?_ne_finish he) hb (Token.shows_of_ofSymbol? he).2.report? _ s

/-- Two texts with a separator between them are evaluated one after the other. -/
theorem evaluate_append_separator (s : Session) (a b : List Char) {c : Char}
    (hc : c = '\n' ∨ c = ';') :
    s.evaluate (a ++ c :: b) =
      ((s.evaluate a).1 ++ ((s.evaluate a).2.evaluate b).1, ((s.evaluate a).2.evaluate b).2) := by
  obtain rfl | rfl := hc
  · exact evaluate_append_symbol (e := .newline) rfl rfl endsTokens_newline s a b
  · exact evaluate_append_symbol (e := .semicolon) rfl rfl endsTokens_semicolon s a b

/-- A bracket is open and a number is half written where the separator stands. -/
theorem evaluate_openBracket_separator :
    (';' = '\n' ∨ ';' = ';') ∧
      Session.evaluate {} "x = 2 * (1.;.5 - x) ?\n".toList =
        ((Session.evaluate {} "x = 2 * (1.".toList).1 ++
            ((Session.evaluate {} "x = 2 * (1.".toList).2.evaluate ".5 - x) ?\n".toList).1,
          ((Session.evaluate {} "x = 2 * (1.".toList).2.evaluate ".5 - x) ?\n".toList).2) :=
  ⟨.inr rfl, evaluate_append_separator {} "x = 2 * (1.".toList ".5 - x) ?\n".toList (.inr rfl)⟩

theorem evaluate_nil (s : Session) : s.evaluate [] = ([], s) := by
  rw [s.evaluate_eq_evaluateTokens, tokenize_gap (by simp), s.evaluateTokens_nil]

def evaluateEach (s : Session) : List (List Char) → List (List Outcome) × Session
  | [] => ([], s)
  | text :: rest =>
    let run := s.evaluate text
    let others := run.2.evaluateEach rest
    (run.1 :: others.1, others.2)

theorem length_evaluateEach (s : Session) (texts : List (List Char)) :
    (s.evaluateEach texts).1.length = texts.length := by
  induction texts generalizing s with
  | nil => rfl
  | cons text rest ih => simp [evaluateEach, ih]

/-- A text is evaluated as its lines are one after another. -/
theorem evaluate_eq_evaluateEach (s : Session) (text : List Char) :
    s.evaluate text =
      ((s.evaluateEach (Text.lines text)).1.flatten, (s.evaluateEach (Text.lines text)).2) := by
  induction text using Text.lines_induction generalizing s with
  | unended line h =>
    by_cases hn : line = []
    · subst hn
      exact s.evaluate_nil
    · rw [Text.lines_of_not_mem h hn]
      simp [evaluateEach]
  | ended line rest h ih =>
    rw [evaluate_append_symbol (e := .newline) rfl rfl endsTokens_newline, ih, Text.lines_append h]
    rfl

end DeskCalculator.Session
