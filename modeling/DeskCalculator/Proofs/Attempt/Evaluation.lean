import DeskCalculator.Proofs.Attempt.Lexer
import DeskCalculator.Statement
import DeskCalculator.Token.Stream

/-!
Evaluation as an attempt. Statements are read and evaluated here once more, at a desk whose tokens may lack
the number they should have. Operations may break down, and so does a loop whose next round has no less before
it than its last. Main statement: at a desk that a text is read from each of these does what the evaluation does
there, and none breaks down.
-/
set_option autoImplicit false

namespace DeskCalculator

def Level.operatorOf? : Level → TokenKind → Option Operator
  | .sum, .plus => some .add
  | .sum, .minus => some .subtract
  | .product, .star => some .multiply
  | .product, .slash => some .divide
  | _, _ => none

theorem Level.operatorOf?_kind (l : Level) (t : Token) : l.operatorOf? t.kind = l.operator? t := by
  cases l <;> cases t <;> rfl

theorem Token.kind_eq_equal {t : Token} : t.kind = .equal ↔ t = .equal := by
  cases t <;> simp [kind]

theorem Token.kind_eq_bracketClose {t : Token} : t.kind = .bracketClose ↔ t = .bracketClose := by
  cases t <;> simp [kind]

theorem Token.kind_eq_finish {t : Token} : t.kind = .finish ↔ t = .finish := by
  cases t <;> simp [kind]

def TokenKind.isBoundary (k : TokenKind) : Bool := k = .exprEnd || k = .finish

/-- A desk at which nothing is known of a token but what it shows. -/
structure LooseDesk where
  reader : Reader
  current : LooseToken
  store : Store

abbrev LooseDesk.Part := LooseDesk → Attempt (Outcome × LooseDesk)

namespace LooseDesk

def rest (d : LooseDesk) : Nat := d.reader.pending.length

def size (d : LooseDesk) : Nat := d.rest + if d.current.kind = .finish then 0 else 1

def advance (d : LooseDesk) : Attempt LooseDesk := do
  let (t, r) ← Lexer.attemptScan d.reader
  let store := match t.report? with
    | some e => Memory.report d.store e
    | none => d.store
  return { reader := r, current := t, store }

def fail (d : LooseDesk) (c : Cause) : Outcome × LooseDesk :=
  (.error c.report, { d with store := Memory.report d.store c.report })

def declare (d : LooseDesk) (name : String) : LooseDesk :=
  { d with store := Memory.declare d.store name }

def assign (d : LooseDesk) (name : String) (x : Float) : LooseDesk :=
  { d with store := Memory.assign d.store name x }

def operations (l : Level) (p : Part) (x : Float) (d : LooseDesk) : Attempt (Outcome × LooseDesk) :=
  match l.operatorOf? d.current.kind with
  | none => pure (.ok x, d)
  | some op => do
    match ← p (← d.advance) with
    | (.error e, d') => pure (.error e, d')
    | (.ok y, d') =>
      match ← op.attempt x y with
      | .error c => pure (d'.fail c)
      | .ok z => if _h : d'.size < d.size then operations l p z d' else throw .standstill
termination_by d.size

def chain (l : Level) (p : Part) : Part := fun d => do
  match ← p d with
  | (.error e, d') => pure (.error e, d')
  | (.ok x, d') => operations l p x d'

def sumOf (p : Part) : Part := chain .sum (chain .product p)

def number (d : LooseDesk) : Attempt (Outcome × LooseDesk) := do
  let d' ← d.advance
  return (.ok (← d.current.number), d')

def variableOf (assigned : Part) (name : String) (d : LooseDesk) : Attempt (Outcome × LooseDesk) := do
  let d' ← (d.declare name).advance
  if d'.current.kind = .equal then
    match ← assigned (← d'.advance) with
    | (.ok x, d'') => pure (.ok x, d''.assign name x)
    | (.error e, d'') => pure (.error e, d'')
  else pure (.ok (Memory.valueOf d'.store name), d')

def opposite (operand : Part) (d : LooseDesk) : Attempt (Outcome × LooseDesk) := do
  match ← operand (← d.advance) with
  | (.ok x, d') => pure (.ok (-x), d')
  | (.error e, d') => pure (.error e, d')

def bracketed (inner : Part) (d : LooseDesk) : Attempt (Outcome × LooseDesk) := do
  match ← inner (← d.advance) with
  | (.error e, d') => pure (.error e, d')
  | (.ok x, d') =>
    match d'.current.report? with
    | some e => pure (.error e, d')
    | none =>
      if d'.current.kind = .bracketClose then return (.ok x, ← d'.advance)
      else pure (d'.fail .bracketExpected)

def missing (d : LooseDesk) : Outcome × LooseDesk :=
  match d.current.report? with
  | some e => (.error e, d)
  | none => d.fail .primaryExpected

def primaryRun (inner : Part) (d : LooseDesk) : Attempt (Outcome × LooseDesk) :=
  match d.current.kind with
  | .number => number d
  | .name => variableOf (sumOf inner) d.current.lexeme d
  | .minus => opposite inner d
  | .bracketOpen => bracketed (sumOf inner) d
  | _ => pure (missing d)

def primary : (levels : Nat) → Part
  | 0 => fun d => pure (d.fail .nestedTooDeeply)
  | n + 1 => primaryRun (primary n)

def expression (levels : Nat) : Part := sumOf (primary levels)

def closeStatement (x : Float) (d : LooseDesk) : Outcome × LooseDesk :=
  match d.current.report? with
  | some e => (.error e, d)
  | none => if d.current.kind.isBoundary then (.ok x, d) else d.fail (.unexpected d.current.kind)

def skipStatement (d : LooseDesk) : Attempt LooseDesk :=
  if d.current.kind.isBoundary then pure d
  else do
    let d' ← d.advance
    if _h : d'.size < d.size then skipStatement d' else throw .standstill
termination_by d.size

def statement (levels : Nat) : Part := fun d => do
  let closed ← match ← expression levels d with
    | (.ok x, d') => pure (closeStatement x d')
    | (.error e, d') => pure (.error e, d')
  match closed with
  | (.ok x, d') => pure (.ok x, d')
  | (.error e, d') => return (.error e, ← d'.skipStatement)

def nextOutcome? (levels : Nat) (d : LooseDesk) : Attempt (Option Outcome × LooseDesk) := do
  let d' ← d.advance
  if d'.current.kind = .finish then pure (none, d')
  else
    match d'.current.report? with
    | some e => pure (some (.error e), d')
    | none =>
      if d'.current.kind.isBoundary then
        if _h : d'.rest < d.rest then nextOutcome? levels d' else throw .standstill
      else do
        let outcome ← statement levels d'
        return (some outcome.1, outcome.2)
termination_by d.rest

def outcomes (levels : Nat) (d : LooseDesk) : Attempt (List Outcome × LooseDesk) := do
  match ← nextOutcome? levels d with
  | (none, d') => pure ([], d')
  | (some o, d') =>
    if _h : d'.rest < d.rest then
      let others ← outcomes levels d'
      return (o :: others.1, others.2)
    else throw .standstill
termination_by d.rest

end LooseDesk

def Desk.loose (d : Desk TokenStream Store) : LooseDesk where
  reader := d.source.reader
  current := d.current.loose
  store := d.memory

def Part.AttemptedBy (p : Part TokenStream Store) (q : LooseDesk.Part) : Prop :=
  ∀ d : Desk TokenStream Store, q d.loose = pure ((p.run d).map id Desk.loose)

theorem Part.AttemptedBy.eq_of_run {p : Part TokenStream Store} {q : LooseDesk.Part}
    (h : p.AttemptedBy q) {d d' : Desk TokenStream Store} {o : Outcome} (hr : p.run d = (o, d')) :
    q d.loose = pure (o, d'.loose) := by
  rw [h d, hr]
  rfl

namespace LooseDesk

variable {d d' : Desk TokenStream Store} {p : DeskCalculator.Part TokenStream Store} {q : Part}

theorem kind_loose (d : Desk TokenStream Store) : d.loose.current.kind = d.current.kind := rfl

theorem report?_loose (d : Desk TokenStream Store) :
    d.loose.current.report? = d.current.report? := rfl

theorem isBoundary_loose (d : Desk TokenStream Store) :
    d.loose.current.kind.isBoundary = d.current.isBoundary := rfl

theorem rest_loose (d : Desk TokenStream Store) : d.loose.rest = TokenSource.rest d.source := rfl

theorem size_loose (d : Desk TokenStream Store) : d.loose.size = TokenSource.size d.source := by
  have hk : d.loose.current.kind = .finish ↔ TokenSource.current d.source = .finish :=
    Token.kind_eq_finish
  simp only [size, TokenSource.size, hk, rest_loose]

theorem advance_loose (d : Desk TokenStream Store) : d.loose.advance = pure d.advance.loose := by
  unfold advance
  rw [show d.loose.reader = d.source.reader from rfl, Lexer.attemptScan_eq]
  rfl

theorem fail_loose (d : Desk TokenStream Store) (c : Cause) :
    d.loose.fail c = (d.fail c).map id Desk.loose := rfl

theorem operations_loose (h : p.AttemptedBy q) (l : Level) (x : Float) (d : Desk TokenStream Store) :
    operations l q x d.loose = pure ((Part.operations l p x d).map id Desk.loose) := by
  fun_induction Part.operations l p x d with
  | case1 x d ho =>
    rw [operations, kind_loose, l.operatorOf?_kind, ho]
    rfl
  | case2 x d op ho e d' hr =>
    rw [operations, kind_loose, l.operatorOf?_kind, ho]
    simp only [advance_loose, pure_bind, h.eq_of_run hr]
    rfl
  | case3 x d op ho y d' hr c hc =>
    rw [operations, kind_loose, l.operatorOf?_kind, ho]
    simp only [advance_loose, pure_bind, h.eq_of_run hr, op.attempt_eq, hc, fail_loose]
  | case4 x d op ho y d' hr z hz ih =>
    have hs : d'.loose.size < d.loose.size := by
      have hp := p.reaches d.advance
      rw [hr] at hp
      simpa only [size_loose] using hp.size_lt (Level.isBoundary_of_operator? ho)
    rw [operations, kind_loose, l.operatorOf?_kind, ho]
    simp only [advance_loose, pure_bind, h.eq_of_run hr, op.attempt_eq, hz, dif_pos hs, ih]

theorem attemptedBy_chain (h : p.AttemptedBy q) (l : Level) :
    (Part.chain l p).AttemptedBy (chain l q) := by
  intro d
  cases hr : p.run d with
  | mk o d' =>
    unfold chain
    rw [h.eq_of_run hr, pure_bind]
    cases o with
    | error e =>
      rw [Part.run_chain_of_error hr]
      rfl
    | ok x =>
      rw [Part.run_chain_of_ok hr]
      exact operations_loose h l x d'

theorem number_loose {ds : String} {x : Float} (hc : d.current = .number ds x) :
    number d.loose = pure ((Part.number x d).map id Desk.loose) := by
  have hn : d.loose.current.number = pure x := by
    rw [show d.loose.current = d.current.loose from rfl, hc]
    rfl
  rw [number, advance_loose, pure_bind, hn]
  rfl

theorem variableOf_loose (h : p.AttemptedBy q) (name : String) (d : Desk TokenStream Store) :
    variableOf q name d.loose = pure ((Part.variableOf p name d).map id Desk.loose) := by
  have ha : (d.loose.declare name).advance = pure (d.declare name).advance.loose :=
    advance_loose (d.declare name)
  unfold variableOf Part.variableOf
  simp only
  rw [ha, pure_bind, kind_loose]
  by_cases he : (d.declare name).advance.current = .equal
  · rw [if_pos he, if_pos (Token.kind_eq_equal.2 he), advance_loose, pure_bind]
    cases hr : p.run (d.declare name).advance.advance with
    | mk o d' =>
      rw [h.eq_of_run hr, pure_bind]
      cases o <;> rfl
  · rw [if_neg he, if_neg (mt Token.kind_eq_equal.1 he)]
    rfl

theorem opposite_loose (h : p.AttemptedBy q) (d : Desk TokenStream Store) :
    opposite q d.loose = pure ((Part.opposite p d).map id Desk.loose) := by
  unfold opposite Part.opposite
  cases hr : p.run d.advance with
  | mk o d' =>
    rw [advance_loose, pure_bind, h.eq_of_run hr, pure_bind]
    cases o <;> rfl

theorem bracketed_loose (h : p.AttemptedBy q) (d : Desk TokenStream Store) :
    bracketed q d.loose = pure ((Part.bracketed p d).map id Desk.loose) := by
  unfold bracketed Part.bracketed
  cases hr : p.run d.advance with
  | mk o d' =>
    rw [advance_loose, pure_bind, h.eq_of_run hr, pure_bind]
    cases o with
    | error e => rfl
    | ok x =>
      simp only
      rw [report?_loose, kind_loose]
      cases he : d'.current.report? with
      | some e => rfl
      | none =>
        simp only
        by_cases hc : d'.current = .bracketClose
        · rw [if_pos hc, if_pos (Token.kind_eq_bracketClose.2 hc), advance_loose]
          rfl
        · rw [if_neg hc, if_neg (mt Token.kind_eq_bracketClose.1 hc)]
          rfl

theorem missing_loose (d : Desk TokenStream Store) :
    missing d.loose = (Part.missing d).map id Desk.loose := by
  unfold missing Part.missing
  rw [report?_loose]
  cases d.current.report? <;> rfl

theorem attemptedBy_sumOf (h : p.AttemptedBy q) : (Part.sumOf p).AttemptedBy (sumOf q) :=
  attemptedBy_chain (attemptedBy_chain h .product) .sum

theorem primaryRun_loose (h : p.AttemptedBy q) (d : Desk TokenStream Store) :
    primaryRun q d.loose = pure ((Part.primaryRun p d).map id Desk.loose) := by
  have hs := attemptedBy_sumOf h
  unfold primaryRun Part.primaryRun
  rw [kind_loose, missing_loose]
  cases hc : d.current with
  | number ds x => exact number_loose hc
  | name id =>
    have hl : d.loose.current.lexeme = id := congrArg Token.lexeme hc
    rw [hl]
    exact variableOf_loose hs id d
  | minus => exact opposite_loose h d
  | bracketOpen => exact bracketed_loose hs d
  | _ => rfl

theorem attemptedBy_primary (n : Nat) : (Part.primary n).AttemptedBy (primary n) := by
  induction n with
  | zero => exact fun d => rfl
  | succ n ih => exact primaryRun_loose ih

theorem attemptedBy_expression (n : Nat) : (Part.expression n).AttemptedBy (expression n) :=
  attemptedBy_sumOf (attemptedBy_primary n)

theorem closeStatement_loose (x : Float) (d : Desk TokenStream Store) :
    closeStatement x d.loose = (Desk.closeStatement x d).map id Desk.loose := by
  unfold closeStatement Desk.closeStatement
  rw [report?_loose, isBoundary_loose, kind_loose]
  cases d.current.report? with
  | some e => rfl
  | none => cases d.current.isBoundary <;> rfl

theorem skipStatement_loose (d : Desk TokenStream Store) :
    d.loose.skipStatement = pure d.skipStatement.loose := by
  fun_induction Desk.skipStatement d with
  | case1 d hb =>
    rw [skipStatement, isBoundary_loose, if_pos hb]
  | case2 d hb ih =>
    have hs : d.advance.loose.size < d.loose.size := by
      rw [size_loose, size_loose]
      exact TokenSource.size_advance_lt (Bool.eq_false_iff.2 hb)
    rw [skipStatement, isBoundary_loose, if_neg hb, advance_loose, pure_bind, dif_pos hs, ih]

theorem statement_loose (n : Nat) (d : Desk TokenStream Store) :
    statement n d.loose = pure ((Desk.statement n d).map id Desk.loose) := by
  unfold statement Desk.statement
  cases hr : (Part.expression n).run d with
  | mk o d' =>
    rw [(attemptedBy_expression n).eq_of_run hr, pure_bind]
    cases o with
    | error e =>
      simp only [pure_bind, skipStatement_loose]
      rfl
    | ok x =>
      simp only [closeStatement_loose, pure_bind]
      cases hc : Desk.closeStatement x d' with
      | mk o d'' =>
        cases o with
        | ok y => rfl
        | error e =>
          change (do return (_, ← d''.loose.skipStatement)) = _
          rw [skipStatement_loose, pure_bind]
          rfl

theorem nextOutcome?_round (n : Nat) (d : Desk TokenStream Store) :
    nextOutcome? n d.loose =
      if d.advance.current = .finish then pure (none, d.advance.loose)
      else
        match d.advance.current.report? with
        | some e => pure (some (.error e), d.advance.loose)
        | none =>
          if d.advance.current.isBoundary then nextOutcome? n d.advance.loose
          else pure (some (Desk.statement n d.advance).1, (Desk.statement n d.advance).2.loose) := by
  have hk : d.advance.loose.current.kind = .finish ↔ d.advance.current = .finish :=
    Token.kind_eq_finish
  conv => lhs; rw [nextOutcome?, advance_loose, pure_bind]
  simp only [hk, report?_loose, isBoundary_loose, statement_loose, pure_bind, Prod.map, id]
  by_cases hf : d.advance.current = .finish
  · rw [if_pos hf, if_pos hf]
  · have hs : d.advance.loose.rest < d.loose.rest := TokenSource.rest_advance_lt d.source hf
    rw [if_neg hf, if_neg hf, dif_pos hs]

theorem nextOutcome?_loose (n : Nat) (d : Desk TokenStream Store) :
    nextOutcome? n d.loose = pure ((Desk.nextOutcome? n d).map id Desk.loose) := by
  fun_induction Desk.nextOutcome? n d with
  | case1 d next hf => rw [nextOutcome?_round, if_pos hf, Prod.map, id]
  | case2 d next hf e he =>
    rw [nextOutcome?_round, if_neg hf]
    simp only [next] at he
    rw [he]
    rfl
  | case3 d next hf he hb ih =>
    rw [nextOutcome?_round, if_neg hf]
    simp only [next] at he
    rw [he]
    exact (if_pos hb).trans ih
  | case4 d next hf he hb outcome =>
    rw [nextOutcome?_round, if_neg hf]
    simp only [next] at he
    rw [he]
    exact if_neg hb

theorem outcomes_loose (n : Nat) (d : Desk TokenStream Store) :
    outcomes n d.loose = pure ((Desk.outcomes n d).map id Desk.loose) := by
  fun_induction Desk.outcomes n d with
  | case1 d d' hd =>
    rw [outcomes, nextOutcome?_loose, hd, pure_bind]
    rfl
  | case2 d o d' hd others ih =>
    have hs : d'.loose.rest < d.loose.rest := Desk.rest_nextOutcome?_lt hd
    rw [outcomes, nextOutcome?_loose, hd, pure_bind]
    simp only [Prod.map, id]
    rw [dif_pos hs, ih, pure_bind]
    rfl

end LooseDesk

end DeskCalculator
