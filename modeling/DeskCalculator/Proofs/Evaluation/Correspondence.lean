import DeskCalculator.Proofs.Evaluation.Course
import DeskCalculator.Proofs.Evaluation.Onward
import Mathlib.Data.List.Forall2

/-!
Two evaluations side by side, with a tolerance for what may differ between them. Main statements: at desks that
correspond every part of a statement, every statement and every text comes to the same within the tolerance, and
what it leaves behind corresponds again. The one exception is a mistake with which the tolerance lets one of the
two fail where the other does not.
-/
set_option autoImplicit false

namespace DeskCalculator

/-- Two tokens between which no statement makes a difference: names of corresponding variables, tokens
that are the same, or two that end a statement and carry the same report or none. -/
inductive Token.Matches (V : String → String → Prop) : Token → Token → Prop
  | name {a b : String} : V a b → Matches V (.name a) (.name b)
  | same {t : Token} : t.kind ≠ .name → Matches V t t
  | boundary {t u : Token} : t.isBoundary = true → u.isBoundary = true → t.report? = u.report? →
      Matches V t u

namespace Token.Matches

variable {V : String → String → Prop} {t u : Token}

theorem refl (t : Token) : t.Matches Eq t := by
  cases t with
  | name id => exact .name rfl
  | _ => exact .same (by simp [Token.kind])

theorem isBoundary_eq (h : Matches V t u) : t.isBoundary = u.isBoundary := by
  cases h with
  | name => rfl
  | same => rfl
  | boundary ht hu => rw [ht, hu]

theorem kind_eq (h : Matches V t u) (hb : t.isBoundary = false) : t.kind = u.kind := by
  cases h with
  | name => rfl
  | same => rfl
  | boundary ht => simp [ht] at hb

theorem report?_eq (h : Matches V t u) : t.report? = u.report? := by
  cases h with
  | name => rfl
  | same => rfl
  | boundary _ _ hr => exact hr

theorem operator?_eq (h : Matches V t u) (l : Level) : l.operator? t = l.operator? u := by
  cases h with
  | name => cases l <;> rfl
  | same => rfl
  | boundary ht hu => rw [Level.operator?_of_isBoundary ht, Level.operator?_of_isBoundary hu]

theorem eq_iff (h : Matches V t u) {v : Token} (hv : v.kind ≠ .name) (hb : v.isBoundary = false) :
    t = v ↔ u = v := by
  cases h with
  | name =>
    constructor <;> intro he <;> subst he <;> exact absurd rfl hv
  | same => rfl
  | boundary ht hu =>
    constructor <;> intro he <;> subst he <;> simp_all

end Token.Matches

theorem Operator.apply_eq_error_iff {op : Operator} {x y : Float} {c : Cause} :
    op.apply x y = .error c ↔ op = .divide ∧ (y == 0) = true ∧ c = .divideByZero := by
  cases op with
  | divide =>
    by_cases hy : (y == 0) = true
    · have ha : Operator.divide.apply x y = .error .divideByZero := if_pos hy
      rw [ha]
      exact ⟨fun h => ⟨rfl, hy, (Except.error.inj h).symm⟩, fun h => by rw [h.2.2]⟩
    · have ha : Operator.divide.apply x y = .ok (x / y) := if_neg hy
      simp [ha, hy]
  | _ => simp [apply]

def Outcome.failsWith (k : ErrorKind) : Outcome → Bool
  | .ok _ => false
  | .error r => r.kind = k

theorem Outcome.failsWith_error {r : Report} {k : ErrorKind} :
    failsWith k (.error r) = true ↔ r.kind = k := decide_eq_true_iff

/-- What may differ between two evaluations: which values correspond, and with which kinds of mistakes the first
may fail by itself, and with which the second. Operations keep to it, up to a divisor that is zero on one side
only. -/
structure Tolerance where
  Value : Float → Float → Prop
  first : ErrorKind → Prop
  second : ErrorKind → Prop
  value_self : ∀ x, Value x x
  value_neg : ∀ {x y}, Value x y → Value (-x) (-y)
  value_apply : ∀ {op : Operator} {x y z w u v}, Value x y → Value z w →
    op.apply x z = .ok u → op.apply y w = .ok v → Value u v
  divisor : ∀ {z w}, Value z w → (z == 0) = (w == 0) ∨ first .arithmetic ∧ second .arithmetic

namespace Tolerance

def exact (first : ErrorKind → Prop) : Tolerance where
  Value := Eq
  first
  second _ := False
  value_self _ := rfl
  value_neg h := congrArg (- ·) h
  value_apply hx hz hu hv := by
    subst hx hz
    exact Except.ok.inj (hu.symm.trans hv)
  divisor h := .inl (by rw [h])

def valueless : Tolerance where
  Value _ _ := True
  first := (· = .arithmetic)
  second := (· = .arithmetic)
  value_self _ := trivial
  value_neg _ := trivial
  value_apply _ _ _ _ := trivial
  divisor _ := .inr ⟨rfl, rfl⟩

inductive Same (T : Tolerance) : Outcome → Outcome → Prop
  | value {x y : Float} : T.Value x y → Same T (.ok x) (.ok y)
  | failure (r : Report) : Same T (.error r) (.error r)

/-- The same has come out at both desks, which correspond, or one side has failed by itself. -/
inductive Meets (T : Tolerance) {δ ε : Type} (R : δ → ε → Prop) : Outcome × δ → Outcome × ε → Prop
  | value {x y : Float} {d : δ} {e : ε} : T.Value x y → R d e → Meets T R (.ok x, d) (.ok y, e)
  | failure (r : Report) {d : δ} {e : ε} : R d e → Meets T R (.error r, d) (.error r, e)
  | first {r : Report} {d : δ} {b : Outcome × ε} : T.first r.kind → Meets T R (.error r, d) b
  | second {r : Report} {e : ε} {a : Outcome × δ} : T.second r.kind → Meets T R a (.error r, e)

variable {T : Tolerance}

theorem apply_cases (op : Operator) {x y z w : Float} (hx : T.Value x y) (hz : T.Value z w) :
    (∃ u v, op.apply x z = .ok u ∧ op.apply y w = .ok v ∧ T.Value u v) ∨
      (∃ c, op.apply x z = .error c ∧ op.apply y w = .error c) ∨
      (∃ c, op.apply x z = .error c ∧ T.first c.kind) ∨
      ∃ c, op.apply y w = .error c ∧ T.second c.kind := by
  cases hu : op.apply x z with
  | ok u =>
    cases hv : op.apply y w with
    | ok v => exact .inl ⟨u, v, rfl, rfl, T.value_apply hx hz hu hv⟩
    | error c =>
      obtain ⟨rfl, hw, rfl⟩ := Operator.apply_eq_error_iff.1 hv
      obtain he | hk := T.divisor hz
      · cases hu.symm.trans (Operator.apply_eq_error_iff.2 ⟨rfl, he.trans hw, rfl⟩)
      · exact .inr (.inr (.inr ⟨_, rfl, hk.2⟩))
  | error c =>
    obtain ⟨rfl, hz', rfl⟩ := Operator.apply_eq_error_iff.1 hu
    cases hv : Operator.divide.apply y w with
    | ok v =>
      obtain he | hk := T.divisor hz
      · cases hv.symm.trans (Operator.apply_eq_error_iff.2 ⟨rfl, he.symm.trans hz', rfl⟩)
      · exact .inr (.inr (.inl ⟨_, rfl, hk.1⟩))
    | error c =>
      obtain ⟨-, -, rfl⟩ := Operator.apply_eq_error_iff.1 hv
      exact .inr (.inl ⟨_, rfl, rfl⟩)

section
variable {δ ε : Type} {R : δ → ε → Prop} {a : Outcome × δ} {b : Outcome × ε}

theorem Meets.onward {f : Float → δ → Outcome × δ} {g : Float → ε → Outcome × ε} (h : T.Meets R a b)
    (hfg : ∀ {x y d e}, a = (.ok x, d) → b = (.ok y, e) → T.Value x y → R d e → T.Meets R (f x d) (g y e)) :
    T.Meets R (onward f a) (onward g b) := by
  cases h with
  | value hv hR => exact hfg rfl rfl hv hR
  | failure r hR => exact .failure r hR
  | first hk => exact .first hk
  | second hk => exact .second hk

theorem Meets.outcome_cases (h : T.Meets R a b) :
    (∃ r, a.1 = .error r ∧ T.first r.kind) ∨ (∃ r, b.1 = .error r ∧ T.second r.kind) ∨
      T.Same a.1 b.1 ∧ R a.2 b.2 := by
  cases h with
  | value hv hR => exact .inr (.inr ⟨.value hv, hR⟩)
  | failure r hR => exact .inr (.inr ⟨.failure r, hR⟩)
  | first hk => exact .inl ⟨_, rfl, hk⟩
  | second hk => exact .inr (.inl ⟨_, rfl, hk⟩)

theorem Same.eq {first : ErrorKind → Prop} {o o' : Outcome} (h : (exact first).Same o o') : o = o' := by
  cases h with
  | value hv => exact congrArg Except.ok hv
  | failure r => rfl

end

end Tolerance

variable {τ σ μ ν : Type} [TokenSource τ] [TokenSource σ] [Memory μ] [Memory ν]

def Desk.Declared (d : Desk τ μ) (name : String) : Prop :=
  ∃ d₀ : Desk τ μ, (d₀.declare name).Proceeds d

/-- Desks that correspond go on corresponding whatever a statement does at both. Moving on is asked for only
within a statement, and assigning only to variables that have been created. -/
structure Correspondence (T : Tolerance) (V : String → String → Prop) (R : Desk τ μ → Desk σ ν → Prop) :
    Prop where
  current : ∀ {d e}, R d e → d.current.Matches V e.current
  advance : ∀ {d e}, R d e → d.current.isBoundary = false → R d.advance e.advance
  declare : ∀ {d e a b}, R d e → V a b → R (d.declare a) (e.declare b)
  valueOf : ∀ {d e a b}, R d e → V a b → T.Value (d.valueOf a) (e.valueOf b)
  assign : ∀ {d e a b x y}, R d e → V a b → T.Value x y → d.Declared a → e.Declared b →
    R (d.assign a x) (e.assign b y)
  fail : ∀ {d e c}, R d e → R (d.fail c).2 (e.fail c).2

structure Part.Corresponds (T : Tolerance) (R : Desk τ μ → Desk σ ν → Prop) (p : Part τ μ) (q : Part σ ν) :
    Prop where
  left : p.ComesOut
  right : q.ComesOut
  meets : ∀ {d e}, R d e → T.Meets R (p.run d) (q.run e)

namespace Correspondence

variable {T : Tolerance} {V : String → String → Prop} {R : Desk τ μ → Desk σ ν → Prop}
variable (S : Correspondence T V R)
variable {p : Part τ μ} {q : Part σ ν} {d : Desk τ μ} {e : Desk σ ν}
include S

theorem meets_fail (h : R d e) (c : Cause) : T.Meets R (d.fail c) (e.fail c) :=
  .failure c.report (S.fail h)

theorem meets_operations (hp : p.Corresponds T R q) (l : Level) {x y : Float} (hx : T.Value x y) (h : R d e) :
    T.Meets R (Part.operations l p x d) (Part.operations l q y e) := by
  -- Each operation passes its operator, so there is less before the desk where the next one may follow.
  induction hn : TokenSource.size d.source using Nat.strongRecOn generalizing d e x y with
  | ind n ih =>
    have ho := (S.current h).operator?_eq l
    cases hl : l.operator? d.current with
    | none =>
      rw [Part.operations_of_none hl, Part.operations_of_none (ho ▸ hl)]
      exact .value hx h
    | some op =>
      have hb := Level.isBoundary_of_operator? hl
      rw [Part.operations_eq_onward hl, Part.operations_eq_onward (ho ▸ hl)]
      refine (hp.meets (S.advance h hb)).onward fun {z w d' e'} hz hw hv hR => ?_
      have hs : TokenSource.size d'.source < n := by
        have hr := p.reaches d.advance
        rw [hz] at hr
        exact hn ▸ hr.size_lt hb
      obtain ⟨u, v, hu, hv, huv⟩ | ⟨c, hc, hc'⟩ | ⟨c, hc, hk⟩ | ⟨c, hc, hk⟩ := T.apply_cases op hx hv
      · rw [hu, hv]
        exact ih _ hs huv hR rfl
      · rw [hc, hc']
        exact S.meets_fail hR c
      · rw [hc]
        exact .first hk
      · rw [hc]
        exact .second hk

theorem corresponds_chain (hp : p.Corresponds T R q) (l : Level) :
    (Part.chain l p).Corresponds T R (Part.chain l q) where
  left := Part.comesOut_chain hp.left l
  right := Part.comesOut_chain hp.right l
  meets h := by
    rw [Part.run_chain_eq_onward, Part.run_chain_eq_onward]
    exact (hp.meets h).onward fun _ _ hv hR => S.meets_operations hp l hv hR

theorem meets_variableOf (hp : p.Corresponds T R q) {a b : String} (hv : V a b) (h : R d e)
    (hd : d.current.isBoundary = false) :
    T.Meets R (Part.variableOf p a d) (Part.variableOf q b e) := by
  have hR := S.advance (S.declare h hv) hd
  have hm := S.current hR
  have he := hm.eq_iff (v := .equal) (by decide) rfl
  by_cases hc : (d.declare a).advance.current = .equal
  · have hb : (d.declare a).advance.current.isBoundary = false := by rw [hc]; rfl
    rw [Part.variableOf_eq_onward p hc, Part.variableOf_eq_onward q (he.1 hc)]
    refine (hp.meets (S.advance hR hb)).onward fun {x y d' e'} hx hy hxy hR' => ?_
    -- The right side only adds to what was there when the variable was created.
    have hpd : (d.declare a).Proceeds d' := by
      have hr := hp.left (d.declare a).advance.advance
      rw [hx] at hr
      exact ((Desk.Proceeds.advance (d := d.declare a) hd).trans (.advance hb)).trans hr.proceeds
    have hpe : (e.declare b).Proceeds e' := by
      have hr := hp.right (e.declare b).advance.advance
      rw [hy] at hr
      have he : (e.declare b).current.isBoundary = false := (S.current h).isBoundary_eq ▸ hd
      exact ((Desk.Proceeds.advance he).trans (.advance (hm.isBoundary_eq ▸ hb))).trans hr.proceeds
    exact .value hxy (S.assign hR' hv hxy ⟨d, hpd⟩ ⟨e, hpe⟩)
  · have hl : Part.variableOf p a d = (.ok ((d.declare a).advance.valueOf a), (d.declare a).advance) :=
      if_neg hc
    have hr : Part.variableOf q b e = (.ok ((e.declare b).advance.valueOf b), (e.declare b).advance) :=
      if_neg (mt he.2 hc)
    rw [hl, hr]
    exact .value (S.valueOf hR hv) hR

theorem meets_opposite (hp : p.Corresponds T R q) (h : R d e) (hd : d.current.isBoundary = false) :
    T.Meets R (Part.opposite p d) (Part.opposite q e) := by
  rw [Part.opposite_eq_onward, Part.opposite_eq_onward]
  exact (hp.meets (S.advance h hd)).onward fun _ _ hv hR => .value (T.value_neg hv) hR

theorem meets_closed {x y : Float} (hx : T.Value x y) (h : R d e) : T.Meets R (closed x d) (closed y e) := by
  have hm := S.current h
  unfold closed
  simp only [hm.report?_eq, hm.eq_iff (v := .bracketClose) (by decide) rfl]
  split
  · exact .failure _ h
  · split
    · rename_i hc
      exact .value hx (S.advance h (by rw [(hm.eq_iff (by decide) rfl).2 hc]; rfl))
    · exact S.meets_fail h _

theorem meets_bracketed (hp : p.Corresponds T R q) (h : R d e) (hd : d.current.isBoundary = false) :
    T.Meets R (Part.bracketed p d) (Part.bracketed q e) := by
  rw [Part.bracketed_eq_onward, Part.bracketed_eq_onward]
  exact (hp.meets (S.advance h hd)).onward fun _ _ hv hR => S.meets_closed hv hR

theorem meets_missing (h : R d e) : T.Meets R (Part.missing d) (Part.missing e) := by
  unfold Part.missing
  rw [(S.current h).report?_eq]
  split
  · exact .failure _ h
  · exact S.meets_fail h _

theorem meets_primaryRun (hp : p.Corresponds T R q) (h : R d e) :
    T.Meets R (Part.primaryRun p d) (Part.primaryRun q e) := by
  have hs := S.corresponds_chain (S.corresponds_chain hp .product) .sum
  have hm := S.current h
  cases hb : d.current.isBoundary with
  | true =>
    rw [Part.primaryRun_of_isBoundary hb, Part.primaryRun_of_isBoundary (hm.isBoundary_eq ▸ hb)]
    exact S.meets_missing h
  | false =>
    generalize hd : d.current = t at hm
    generalize he : e.current = u at hm
    unfold Part.primaryRun
    rw [hd, he]
    cases hm with
    | name hv => exact S.meets_variableOf hs hv h hb
    | boundary ht =>
      rw [hd, ht] at hb
      contradiction
    | @same t hk =>
      cases t with
      | number ds x => exact .value (T.value_self x) (S.advance h hb)
      | name id => exact absurd rfl hk
      | minus => exact S.meets_opposite hp h hb
      | bracketOpen => exact S.meets_bracketed hs h hb
      | _ => exact S.meets_missing h

/-- The second may nest primaries deeper if the tolerance lets the first fail where it may not. -/
theorem corresponds_primary {n m : Nat} (hle : n ≤ m) (hn : n < m → T.first .nesting) :
    (Part.primary n : Part τ μ).Corresponds T R (Part.primary m : Part σ ν) := by
  refine ⟨Part.comesOut_primary n, Part.comesOut_primary m, ?_⟩
  induction n generalizing m with
  | zero =>
    intro d e h
    -- With no level left the first fails whatever the second goes on to do.
    cases m with
    | zero => exact S.meets_fail h _
    | succ m => exact .first (hn (Nat.succ_pos m))
  | succ n ih =>
    intro d e h
    cases m with
    | zero => omega
    | succ m =>
      refine S.meets_primaryRun ⟨Part.comesOut_primary n, Part.comesOut_primary m, ?_⟩ h
      exact ih (by omega) fun hlt => hn (by omega)

variable {n m : Nat} (hle : n ≤ m) (hn : n < m → T.first .nesting)
include hle hn

theorem meets_expression (h : R d e) :
    T.Meets R ((Part.expression n).run d) ((Part.expression m).run e) :=
  (S.corresponds_chain (S.corresponds_chain (S.corresponds_primary hle hn) .product) .sum).meets h

omit hle hn in
theorem meets_closeStatement {x y : Float} (hx : T.Value x y) (h : R d e) :
    T.Meets R (Desk.closeStatement x d) (Desk.closeStatement y e) := by
  have hm := S.current h
  unfold Desk.closeStatement
  rw [hm.report?_eq, ← hm.isBoundary_eq]
  split
  · exact .failure _ h
  · cases hb : d.current.isBoundary with
    | true => exact .value hx h
    | false =>
      rw [hm.kind_eq hb]
      exact S.meets_fail h _

omit hle hn in
theorem skipStatement (h : R d e) : R d.skipStatement e.skipStatement := by
  fun_induction Desk.skipStatement d generalizing e with
  | case1 d hb =>
    rw [Desk.skipStatement_of_isBoundary ((S.current h).isBoundary_eq ▸ hb)]
    exact h
  | case2 d hb ih =>
    have hb' := Bool.eq_false_iff.2 hb
    rw [Desk.skipStatement_of_inner (d := e) ((S.current h).isBoundary_eq ▸ hb')]
    exact ih (S.advance h hb')

theorem meets_statement (h : R d e) : T.Meets R (Desk.statement n d) (Desk.statement m e) := by
  have hc : T.Meets R (onward Desk.closeStatement ((Part.expression n).run d))
      (onward Desk.closeStatement ((Part.expression m).run e)) :=
    (S.meets_expression hle hn h).onward fun _ _ hv hR => S.meets_closeStatement hv hR
  rw [Desk.statement_eq_onward, Desk.statement_eq_onward]
  generalize onward Desk.closeStatement ((Part.expression n).run d) = a at hc ⊢
  generalize onward Desk.closeStatement ((Part.expression m).run e) = b at hc ⊢
  cases hc with
  | value hv hR => exact .value hv hR
  | failure r hR => exact .failure r (S.skipStatement hR)
  | first hk => exact .first hk
  | second hk => exact .second hk

/-- Between two statements the desks are to correspond as well, and to come to the end together. -/
theorem meets_nextOutcome? (ha : ∀ {d e}, R d e → R d.advance e.advance)
    (hf : ∀ {d e}, R d e → (d.current = .finish ↔ e.current = .finish)) (h : R d e) :
    (∃ d' e', Desk.nextOutcome? n d = (none, d') ∧ Desk.nextOutcome? m e = (none, e') ∧ R d' e') ∨
      ∃ o d' o' e', Desk.nextOutcome? n d = (some o, d') ∧ Desk.nextOutcome? m e = (some o', e') ∧
        T.Meets R (o, d') (o', e') := by
  fun_induction Desk.nextOutcome? n d generalizing e with
  | case1 d d' =>
    rename_i hd
    rw [Desk.nextOutcome?_of_finish ((hf (ha h)).1 hd)]
    exact .inl ⟨_, _, rfl, rfl, ha h⟩
  | case2 d d' hd r =>
    rename_i hr
    rw [Desk.nextOutcome?_of_report ((S.current (ha h)).report?_eq ▸ hr)]
    exact .inr ⟨_, _, _, _, rfl, rfl, .failure r (ha h)⟩
  | case3 d d' hd hr hb =>
    rename_i ih
    have hm := S.current (ha h)
    rw [Desk.nextOutcome?_of_separator (mt (hf (ha h)).2 hd) (hm.isBoundary_eq ▸ hb) (hm.report?_eq ▸ hr)]
    exact ih (ha h)
  | case4 d d' hd hr hb =>
    have hb' := Bool.eq_false_iff.2 hb
    rw [Desk.nextOutcome?_of_inner ((S.current (ha h)).isBoundary_eq ▸ hb')]
    exact .inr ⟨_, _, _, _, rfl, rfl, S.meets_statement hle hn (ha h)⟩

/-- Some statement has failed on one side by itself, or the outcomes are the same in order. -/
theorem meets_outcomes (ha : ∀ {d e}, R d e → R d.advance e.advance)
    (hf : ∀ {d e}, R d e → (d.current = .finish ↔ e.current = .finish)) (h : R d e) :
    (∃ r, .error r ∈ (Desk.outcomes n d).1 ∧ T.first r.kind) ∨
      (∃ r, .error r ∈ (Desk.outcomes m e).1 ∧ T.second r.kind) ∨
      List.Forall₂ T.Same (Desk.outcomes n d).1 (Desk.outcomes m e).1 ∧
        R (Desk.outcomes n d).2 (Desk.outcomes m e).2 := by
  fun_induction Desk.outcomes n d generalizing e with
  | case1 d d' hd =>
    obtain ⟨_, e', hd', he, hR⟩ | ⟨o, _, o', e', hd', -⟩ := S.meets_nextOutcome? hle hn ha hf h
    · cases hd.symm.trans hd'
      rw [Desk.outcomes_of_none he]
      exact .inr (.inr ⟨.nil, hR⟩)
    · cases hd.symm.trans hd'
  | case2 d o d' hd =>
    rename_i ih
    obtain ⟨_, e', hd', -⟩ | ⟨_, _, o', e', hd', he, hm⟩ := S.meets_nextOutcome? hle hn ha hf h
    · cases hd.symm.trans hd'
    cases hd.symm.trans hd'
    rw [Desk.outcomes_of_some he]
    obtain ⟨r, rfl, hk⟩ | ⟨r, rfl, hk⟩ | ⟨ho, hR⟩ := hm.outcome_cases
    · exact .inl ⟨r, List.mem_cons_self, hk⟩
    · exact .inr (.inl ⟨r, List.mem_cons_self, hk⟩)
    · obtain ⟨r, hr, hk⟩ | ⟨r, hr, hk⟩ | ⟨hos, hR'⟩ := ih hR
      · exact .inl ⟨r, List.mem_cons_of_mem o hr, hk⟩
      · exact .inr (.inl ⟨r, List.mem_cons_of_mem o' hr, hk⟩)
      · exact .inr (.inr ⟨.cons ho hos, hR'⟩)

end Correspondence

end DeskCalculator
