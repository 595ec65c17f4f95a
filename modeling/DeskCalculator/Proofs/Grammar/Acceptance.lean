import DeskCalculator.Proofs.Grammar.Derivation
import DeskCalculator.Proofs.Grammar.Evaluation
import DeskCalculator.Proofs.Session.Segment

set_option autoImplicit false

namespace DeskCalculator

def Rank.ReadBetween (r : Rank) (d d' : TokenDesk) : Prop :=
  ∃ ts, d.source = ts ++ d'.source ∧ Derives r (ts.map Token.kind)

def Rank.Reads (r : Rank) (p : Part (List Token) Store) : Prop :=
  ∀ (d d' : TokenDesk) (x : Float), p.run d = (.ok x, d') → r.ReadBetween d d'

namespace Part

theorem readBetween_operations {l : Level} {p : Part (List Token) Store} {q r : Rank}
    (hp : q.Reads p)
    (join : ∀ (ks ls : List TokenKind) (t : Token) (op : Operator), l.operator? t = some op →
      Derives r ks → Derives q ls → Derives r (ks ++ t.kind :: ls))
    {d₀ d d' : TokenDesk} {x y : Float} (h₀ : r.ReadBetween d₀ d)
    (h : operations l p x d = (.ok y, d')) : r.ReadBetween d₀ d' := by
  -- Every round adds an operator and an operand to the phrase that has been read.
  fun_induction operations l p x d with
  | case1 x d hop =>
    cases h
    exact h₀
  | case2 x d op hop e d₁ hr => cases h
  | case3 x d op hop z d₁ hr c => cases h
  | case4 x d op hop z d₁ hr w hw ih =>
    refine ih ?_ h
    obtain ⟨ts, hts, ht⟩ := h₀
    obtain ⟨us, hus, hu⟩ := hp d.advance d₁ z hr
    refine ⟨ts ++ d.current :: us, ?_, ?_⟩
    · rw [hts, Desk.source_eq_cons (Level.isBoundary_of_operator? hop), hus]
      simp
    · simpa using join _ _ _ _ hop ht hu

theorem reads_chain {l : Level} {p : Part (List Token) Store} {q r : Rank} (hp : q.Reads p)
    (single : ∀ ks : List TokenKind, Derives q ks → Derives r ks)
    (join : ∀ (ks ls : List TokenKind) (t : Token) (op : Operator), l.operator? t = some op →
      Derives r ks → Derives q ls → Derives r (ks ++ t.kind :: ls)) : r.Reads (chain l p) := by
  intro d d' x h
  cases hr : p.run d with
  | mk o d₁ =>
    cases o with
    | error e =>
      rw [run_chain_of_error hr] at h
      cases h
    | ok y =>
      rw [run_chain_of_ok hr] at h
      obtain ⟨ts, hts, ht⟩ := hp d d₁ y hr
      exact readBetween_operations hp join ⟨ts, hts, single _ ht⟩ h

theorem reads_product {p : Part (List Token) Store} (hp : Rank.primary.Reads p) :
    Rank.term.Reads (chain .product p) := by
  refine reads_chain hp (fun ks => .factor) ?_
  intro ks ls t op hop hk hl
  refine .product ?_ hk hl
  cases t <;> simp_all [Level.operator?, Token.kind]

theorem reads_sumOf {p : Part (List Token) Store} (hp : Rank.primary.Reads p) :
    Rank.expression.Reads (sumOf p) := by
  refine reads_chain (reads_product hp) (fun ks => .summand) ?_
  intro ks ls t op hop hk hl
  refine .sum ?_ hk hl
  cases t <;> simp_all [Level.operator?, Token.kind]

variable {inner : Part (List Token) Store} {d d' : TokenDesk} {x : Float}

theorem readBetween_variableOf (hi : Rank.expression.Reads inner) {id : String}
    (hc : d.current = .name id) (h : variableOf inner id d = (.ok x, d')) :
    Rank.primary.ReadBetween d d' := by
  have hs : d.source = .name id :: (d.declare id).advance.source := by
    have hs := Desk.source_eq_cons (d := d) (by rw [hc]; rfl)
    rw [hc] at hs
    exact hs
  unfold variableOf at h
  simp only at h
  split at h
  · rename_i he
    split at h <;> cases h
    rename_i d₁ hr
    obtain ⟨ts, hts, ht⟩ := hi _ _ _ hr
    have ha := Desk.source_eq_cons (d := (d.declare id).advance) (by rw [he]; rfl)
    refine ⟨.name id :: .equal :: ts, ?_, by simpa [Token.kind] using .assign ht⟩
    rw [hs, ha, he, hts]
    rfl
  · cases h
    exact ⟨[.name id], hs, .name⟩

theorem readBetween_opposite (hi : Rank.primary.Reads inner) (hc : d.current = .minus)
    (h : opposite inner d = (.ok x, d')) : Rank.primary.ReadBetween d d' := by
  unfold opposite at h
  split at h <;> cases h
  rename_i hr
  obtain ⟨ts, hts, ht⟩ := hi _ _ _ hr
  refine ⟨.minus :: ts, ?_, by simpa [Token.kind] using .minus ht⟩
  rw [Desk.source_eq_cons (by rw [hc]; rfl), hc, hts]
  rfl

theorem readBetween_bracketed (hi : Rank.expression.Reads inner) (hc : d.current = .bracketOpen)
    (h : bracketed inner d = (.ok x, d')) : Rank.primary.ReadBetween d d' := by
  unfold bracketed at h
  split at h
  · cases h
  · rename_i d₁ hr
    obtain ⟨ts, hts, ht⟩ := hi _ _ _ hr
    split at h
    · cases h
    · split at h
      · rename_i he
        cases h
        refine ⟨.bracketOpen :: (ts ++ [.bracketClose]), ?_,
          by simpa [Token.kind] using .bracket ht⟩
        rw [Desk.source_eq_cons (by rw [hc]; rfl), hc, hts,
          Desk.source_eq_cons (d := d₁) (by rw [he]; rfl), he]
        simp
      · cases h

theorem reads_primaryRun (hi : Rank.primary.Reads inner) {d d' : TokenDesk} {x : Float}
    (h : primaryRun inner d = (.ok x, d')) : Rank.primary.ReadBetween d d' := by
  unfold primaryRun at h
  split at h <;> rename_i hc
  · rename_i digits y
    cases h
    refine ⟨[.number digits x], ?_, .number⟩
    rw [Desk.source_eq_cons (by rw [hc]; rfl), hc]
    rfl
  · exact readBetween_variableOf (reads_sumOf hi) hc h
  · exact readBetween_opposite hi hc h
  · exact readBetween_bracketed (reads_sumOf hi) hc h
  · unfold missing at h
    split at h <;> cases h

theorem reads_primary (levels : Nat) : Rank.primary.Reads (primary levels) := by
  induction levels with
  | zero =>
    intro d d' x h
    cases h
  | succ n ih =>
    intro d d' x h
    exact reads_primaryRun ih h

theorem reads_expression (levels : Nat) : Rank.expression.Reads (expression levels) :=
  reads_sumOf (reads_primary levels)

end Part

theorem Desk.derives_of_statement {levels : Nat} {ts k : List Token} {m : Store} {x : Float}
    {d : TokenDesk} (hts : ∀ t ∈ ts, t.isBoundary = false)
    (hk : (Token.firstOf k).isBoundary = true)
    (h : Desk.statement levels ⟨ts ++ k, m⟩ = (.ok x, d)) :
    Derives .expression (ts.map Token.kind) := by
  obtain ⟨us, hus, hu⟩ := Part.reads_expression levels _ _ _ (Desk.run_of_statement_eq_ok h).1
  have hd := Desk.source_statement levels hts hk m
  rw [h] at hd
  rw [hd] at hus
  obtain rfl : ts = us := List.append_cancel_right hus
  exact hu

theorem Stop.kind_report (s : Stop) : s.report.kind = .arithmetic ∨ s.report.kind = .nesting := by
  cases s with
  | divideByZero => exact .inl rfl
  | tooDeep => exact .inr rfl

theorem Session.walk_fst {b : Bool} (s : Session) (t : Tree .expression b) :
    (∃ x, (s.walk t).1 = .ok x) ∨ ∃ e : Stop, (s.walk t).1 = .error e.report := by
  unfold walk
  split
  · exact .inl ⟨_, rfl⟩
  · exact .inr ⟨_, rfl⟩

/-- The outcome fits the grammar. A value needs a derivation, and with a derivation there can only be an
arithmetic mistake or nesting that is too deep. -/
def Segment.FitsGrammar (g : Segment) (o : Outcome) : Prop :=
  ((∃ x, o = .ok x) → Derives .expression (g.body.map Token.kind)) ∧
    (Derives .expression (g.body.map Token.kind) →
      (∃ x, o = .ok x) ∨ ∃ e, o = .error e ∧ (e.kind = .arithmetic ∨ e.kind = .nesting))

namespace Segment

theorem fitsGrammar_statement (g : Segment) (hg : g.endsBadly = false) (s : Session) :
    g.FitsGrammar (Desk.statement s.levels ⟨g.tokens, s.store⟩).1 := by
  constructor
  · intro hx
    obtain ⟨x, hx⟩ := hx
    exact Desk.derives_of_statement g.body_inner g.isBoundary_ending (Prod.ext hx rfl)
  · intro hd
    obtain ⟨b, t, ht⟩ := hd.exists_tree rfl
    rw [tokens, ← ht, s.statement_tree t g.isBoundary_ending (report?_ending hg)]
    obtain hx | ⟨e, he⟩ := s.walk_fst t
    · exact .inl hx
    · exact .inr ⟨e.report, he, e.kind_report⟩

theorem evaluateTokens_tokens (g : Segment) (hn : g.body ≠ []) (s : Session) :
    ∃ s' : Session, s.evaluateTokens g.tokens =
      ([(Desk.statement s.levels ⟨g.tokens, s.store⟩).1], s') := by
  have hd := Desk.source_statement s.levels g.body_inner g.isBoundary_ending s.store
  cases hr : Desk.statement s.levels ⟨g.tokens, s.store⟩ with
  | mk o d =>
    obtain ⟨k, m⟩ := d
    rw [tokens] at hr ⊢
    rw [hr] at hd
    obtain rfl : k = g.ending.toList := hd
    rw [s.evaluateTokens_statement hn g.body_inner hr, g.tail_ending, Session.evaluateTokens_nil]
    exact ⟨_, rfl⟩

end Segment

theorem Answers.forall₂_fitsGrammar {s s' : Session} {gs : List Segment} {os : List Outcome}
    (h : Answers s gs os s') :
    List.Forall₂ (fun g o => g.endsBadly = false → g.FitsGrammar o)
      (gs.filter Segment.isAnswered) os := by
  induction h with
  | done s => exact .nil
  | skipped ha _ _ ih => simpa [ha] using ih
  | @answered s s₁ s' g gs o os ha he _ ih =>
    rw [List.filter_cons_of_pos ha]
    refine .cons ?_ ih
    intro hg
    have hn : g.body ≠ [] := by simpa [Segment.isAnswered, hg] using ha
    obtain ⟨s₂, hs⟩ := g.evaluateTokens_tokens hn s
    rw [he] at hs
    obtain rfl : o = (Desk.statement s.levels ⟨g.tokens, s.store⟩).1 := by
      simpa using congrArg Prod.fst hs
    exact g.fitsGrammar_statement hg s

/-- Statements accept their grammar, in every session: as tokens that are not empty and end at a separator
or with the input, and in every text. -/
theorem Session.accepts_grammar (s : Session) :
    (∀ g : Segment, g.body ≠ [] → g.endsBadly = false →
      ∃ (o : Outcome) (s' : Session), s.evaluateTokens g.tokens = ([o], s') ∧ g.FitsGrammar o) ∧
    ∀ text : List Char, List.Forall₂ (fun g o => g.endsBadly = false → g.FitsGrammar o)
      ((segments (tokenize text)).filter Segment.isAnswered) (s.evaluate text).1 := by
  constructor
  · intro g hn hg
    obtain ⟨s', hs⟩ := g.evaluateTokens_tokens hn s
    exact ⟨_, s', hs, g.fitsGrammar_statement hg s⟩
  · intro text
    rw [s.evaluate_eq_evaluateTokens]
    exact (answers_evaluateTokens (Lexer.finish_not_mem_tokens (.ofText text)) s).forall₂_fitsGrammar

def assignmentTimesOpposite : Segment :=
  .ended [.name "x", .equal, .name "y", .star, .minus, .name "z"] .semicolon
    (by simp [Token.isBoundary, Token.kind]) rfl

/-- The derivation closes the assignment before the product, which no reading does. -/
theorem evaluateTokens_assignmentTimesOpposite :
    ∃ s : Session, Session.evaluateTokens {} assignmentTimesOpposite.tokens = ([.ok (-0.0)], s) ∧
      assignmentTimesOpposite.FitsGrammar (.ok (-0.0)) ∧
      Derives .expression [.name, .equal, .name, .star, .minus, .name] := by
  have ho : (Session.evaluateTokens {} assignmentTimesOpposite.tokens).1 = [.ok (-0.0)] := by
    decide +kernel
  obtain ⟨o, s, hs, hf⟩ := (Session.accepts_grammar {}).1 assignmentTimesOpposite
    (by simp [assignmentTimesOpposite, Segment.ended]) rfl
  rw [hs] at ho
  cases ho
  exact ⟨s, hs, hf, hf.1 ⟨_, rfl⟩⟩

end DeskCalculator
