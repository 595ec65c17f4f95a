import DeskCalculator.Evaluation.Expression

/-!
Statements. A statement is an expression; it ends at a line feed, at a semicolon, at a token that carries
a report, or at the end of the text. Empty statements have no outcome. Main statement: the tokens that are
left become fewer with every outcome, so that a text has finitely many.
-/
set_option autoImplicit false

namespace DeskCalculator.Desk

variable {τ μ : Type} [TokenSource τ] [Memory μ]

def closeStatement (x : Float) (d : Desk τ μ) : Outcome × Desk τ μ :=
  match d.current.report? with
  | some e => (.error e, d)
  | none => if d.current.isBoundary then (.ok x, d) else d.fail (.unexpected d.current.kind)

def skipStatement (d : Desk τ μ) : Desk τ μ :=
  if _h : d.current.isBoundary then d else skipStatement d.advance
termination_by TokenSource.size d.source
decreasing_by exact TokenSource.size_advance_lt (Bool.eq_false_iff.2 _h)

/-- Evaluates the statement that begins at the current token, and moves to its end. -/
def statement (levels : Nat) (d : Desk τ μ) : Outcome × Desk τ μ :=
  let first := (Part.expression levels).run d
  let closed := match first with
    | (.ok x, d') => closeStatement x d'
    | (.error e, d') => (.error e, d')
  match closed with
  | (.ok x, d') => (.ok x, d')
  | (.error e, d') => (.error e, d'.skipStatement)

theorem statement_of_error {levels : Nat} {d d' : Desk τ μ} {e : Report}
    (h : (Part.expression levels).run d = (.error e, d')) :
    statement levels d = (.error e, d'.skipStatement) := by
  simp [statement, h]

theorem statement_of_ok {levels : Nat} {d d' : Desk τ μ} {x : Float}
    (h : (Part.expression levels).run d = (.ok x, d')) :
    statement levels d =
      match closeStatement x d' with
      | (.ok y, d'') => (.ok y, d'')
      | (.error e, d'') => (.error e, d''.skipStatement) := by
  simp [statement, h]

theorem run_of_statement_eq_ok {levels : Nat} {d d' : Desk τ μ} {x : Float}
    (h : statement levels d = (.ok x, d')) :
    (Part.expression levels).run d = (.ok x, d') ∧ d'.current.report? = none ∧
      d'.current.isBoundary = true := by
  cases hr : (Part.expression levels).run d with
  | mk o d₁ =>
    cases o with
    | error e =>
      rw [statement_of_error hr] at h
      cases h
    | ok y =>
      rw [statement_of_ok hr] at h
      cases he : d₁.current.report? with
      | some e => simp [closeStatement, he] at h
      | none =>
        cases hb : d₁.current.isBoundary with
        | false => simp [closeStatement, he, hb, fail] at h
        | true =>
          simp only [closeStatement, he, hb, if_true, Prod.mk.injEq, Except.ok.injEq] at h
          obtain ⟨rfl, rfl⟩ := h
          exact ⟨rfl, he, hb⟩

theorem reaches_closeStatement (x : Float) (d : Desk τ μ) : d.Reaches (closeStatement x d).2 := by
  unfold closeStatement
  split
  · exact .refl d
  · split <;> exact .refl d

theorem reaches_skipStatement (d : Desk τ μ) : d.Reaches d.skipStatement := by
  fun_induction skipStatement d with
  | case1 => exact .refl _
  | case2 d h ih => exact .trans (.advance (Bool.eq_false_iff.2 h)) ih

theorem skipStatement_of_isBoundary {d : Desk τ μ} (h : d.current.isBoundary = true) :
    d.skipStatement = d := by
  rw [skipStatement, dif_pos h]

theorem skipStatement_of_inner {d : Desk τ μ} (h : d.current.isBoundary = false) :
    d.skipStatement = d.advance.skipStatement := by
  rw [skipStatement, dif_neg (Bool.eq_false_iff.1 h)]

theorem isBoundary_skipStatement (d : Desk τ μ) : d.skipStatement.current.isBoundary = true := by
  fun_induction skipStatement d with
  | case1 d h => exact h
  | case2 d h ih => exact ih

theorem isBoundary_statement (levels : Nat) (d : Desk τ μ) :
    (statement levels d).2.current.isBoundary = true := by
  cases h : statement levels d with
  | mk o d' =>
    cases o with
    | ok x => exact (run_of_statement_eq_ok h).2.2
    | error e =>
      cases hr : (Part.expression levels).run d with
      | mk o d₁ =>
        cases o with
        | error e' =>
          rw [statement_of_error hr] at h
          cases h
          exact isBoundary_skipStatement d₁
        | ok x =>
          rw [statement_of_ok hr] at h
          split at h <;> cases h
          exact isBoundary_skipStatement _

theorem reaches_statement (levels : Nat) (d : Desk τ μ) : d.Reaches (statement levels d).2 := by
  have h1 := (Part.expression levels).reaches d
  unfold statement
  generalize (Part.expression levels).run d = first at h1 ⊢
  obtain ⟨x | x, d'⟩ := first
  · exact h1.trans (reaches_skipStatement d')
  · have h2 := h1.trans (reaches_closeStatement x d')
    simp only
    split <;> rename_i h <;> rw [h] at h2
    · exact h2
    · exact h2.trans (reaches_skipStatement _)

/-- Reads on to the outcome of the next statement that is not empty. At the end there is none. -/
def nextOutcome? (levels : Nat) (d : Desk τ μ) : Option Outcome × Desk τ μ :=
  let d' := d.advance
  if _h : d'.current = .finish then (none, d')
  else
    match d'.current.report? with
    | some e => (some (.error e), d')
    | none =>
      if d'.current.isBoundary then nextOutcome? levels d'
      else
        let outcome := statement levels d'
        (some outcome.1, outcome.2)
termination_by TokenSource.rest d.source
decreasing_by exact TokenSource.rest_advance_lt _ _h

theorem nextOutcome?_of_finish {levels : Nat} {d : Desk τ μ} (h : d.advance.current = .finish) :
    nextOutcome? levels d = (none, d.advance) := by
  rw [nextOutcome?, dif_pos h]

theorem nextOutcome?_of_report {levels : Nat} {d : Desk τ μ} {e : Report}
    (h : d.advance.current.report? = some e) :
    nextOutcome? levels d = (some (.error e), d.advance) := by
  have hf : d.advance.current ≠ .finish := by
    intro hf
    simp [hf, Token.report?, Token.cause?] at h
  rw [nextOutcome?, dif_neg hf]
  simp only [h]

theorem nextOutcome?_of_separator {levels : Nat} {d : Desk τ μ} (hf : d.advance.current ≠ .finish)
    (hb : d.advance.current.isBoundary = true) (hr : d.advance.current.report? = none) :
    nextOutcome? levels d = nextOutcome? levels d.advance := by
  conv => lhs; rw [nextOutcome?, dif_neg hf]
  simp only [hr, hb, if_true]

theorem nextOutcome?_of_inner {levels : Nat} {d : Desk τ μ}
    (hb : d.advance.current.isBoundary = false) :
    nextOutcome? levels d =
      (some (statement levels d.advance).1, (statement levels d.advance).2) := by
  rw [nextOutcome?, dif_neg (Token.ne_finish_of_isBoundary hb)]
  simp [Token.report?_of_not_boundary hb, hb]

theorem nextOutcome?_congr {levels : Nat} {d e : Desk τ μ} (h : d.advance = e.advance) :
    nextOutcome? levels d = nextOutcome? levels e := by
  rw [nextOutcome?.eq_1 levels d, nextOutcome?.eq_1 levels e]
  simp only [h]

theorem rest_nextOutcome?_lt {levels : Nat} {d d' : Desk τ μ} {o : Outcome}
    (h : nextOutcome? levels d = (some o, d')) :
    TokenSource.rest d'.source < TokenSource.rest d.source := by
  fun_induction nextOutcome? levels d with
  | case1 d e hf => simp at h
  | case2 d e hf r hr =>
    simp only [Prod.mk.injEq] at h
    rw [← h.2]
    exact TokenSource.rest_advance_lt _ hf
  | case3 d e hf hr hb ih => exact Nat.lt_trans (ih h) (TokenSource.rest_advance_lt _ hf)
  | case4 d e hf hr hb out =>
    simp only [Prod.mk.injEq] at h
    rw [← h.2]
    exact Nat.lt_of_le_of_lt (reaches_statement levels e).rest_le
      (TokenSource.rest_advance_lt _ hf)

def outcomes (levels : Nat) (d : Desk τ μ) : List Outcome × Desk τ μ :=
  match _h : nextOutcome? levels d with
  | (none, d') => ([], d')
  | (some o, d') =>
    let others := outcomes levels d'
    (o :: others.1, others.2)
termination_by TokenSource.rest d.source
decreasing_by exact rest_nextOutcome?_lt _h

theorem outcomes_of_none {levels : Nat} {d d' : Desk τ μ}
    (h : nextOutcome? levels d = (none, d')) : outcomes levels d = ([], d') := by
  rw [outcomes]
  split <;> rename_i h' <;> rw [h] at h' <;> cases h'
  rfl

theorem outcomes_of_some {levels : Nat} {d d' : Desk τ μ} {o : Outcome}
    (h : nextOutcome? levels d = (some o, d')) :
    outcomes levels d = (o :: (outcomes levels d').1, (outcomes levels d').2) := by
  rw [outcomes]
  split <;> rename_i h' <;> rw [h] at h' <;> cases h'
  rfl

theorem outcomes_congr {levels : Nat} {d e : Desk τ μ}
    (h : nextOutcome? levels d = nextOutcome? levels e) : outcomes levels d = outcomes levels e := by
  cases hd : nextOutcome? levels d with
  | mk o d' =>
    cases o with
    | none => exact (outcomes_of_none hd).trans (outcomes_of_none (h ▸ hd)).symm
    | some o => exact (outcomes_of_some hd).trans (outcomes_of_some (h ▸ hd)).symm

end DeskCalculator.Desk
