import DeskCalculator.Statement
import Mathlib.Logic.Relation

/-!
What evaluation does at a desk, step by step. Main statements: a part of a statement goes on without
failing for some steps, and then comes out with a value, with the report that the current token carries,
or with one report that it makes itself. What a statement does is no more than this.
-/
set_option autoImplicit false

namespace DeskCalculator

theorem Token.kind_of_report? {t : Token} {r : Report} (h : t.report? = some r) :
    r.kind = .lexical := by
  cases t with
  | invalid c =>
    simp only [report?, cause?, Option.map_some, Option.some.injEq] at h
    subst h
    split <;> rfl
  | _ => simp [report?, cause?] at h

theorem Operator.kind_of_apply {op : Operator} {x y : Float} {c : Cause}
    (h : op.apply x y = .error c) : c.kind = .arithmetic := by
  cases op with
  | divide =>
    simp only [apply] at h
    split at h <;> cases h
    rfl
  | _ => simp [apply] at h

variable {τ μ : Type} [TokenSource τ] [Memory μ]

namespace Desk

/-- What is done without failing: a variable is created or gets a value, or the next token is read within
the statement. -/
inductive Step : Desk τ μ → Desk τ μ → Prop
  | declare (d : Desk τ μ) (name : String) : Step d (d.declare name)
  | assign (d : Desk τ μ) (name : String) (x : Float) : Step d (d.assign name x)
  | advance {d : Desk τ μ} : d.current.isBoundary = false → Step d d.advance

def Proceeds : Desk τ μ → Desk τ μ → Prop := Relation.ReflTransGen Step

/-- How a part comes out. A report that a token carries has been made when the token was read; any other
is made last of all. -/
inductive ComesOut (d : Desk τ μ) : Outcome × Desk τ μ → Prop
  | value {d' : Desk τ μ} (x : Float) : d.Proceeds d' → ComesOut d (.ok x, d')
  | carried {d' : Desk τ μ} {e : Report} : d.Proceeds d' → d'.current.report? = some e →
      ComesOut d (.error e, d')
  | made {d' : Desk τ μ} {c : Cause} : d.Proceeds d' → c.kind ≠ .lexical →
      ComesOut d (.error c.report, (d'.fail c).2)

variable {d d' d'' : Desk τ μ} {r : Outcome × Desk τ μ}

theorem Proceeds.trans (h : d.Proceeds d') (h' : d'.Proceeds d'') : d.Proceeds d'' :=
  Relation.ReflTransGen.trans h h'

theorem Proceeds.advance (h : d.current.isBoundary = false) : d.Proceeds d.advance :=
  .single (.advance h)

theorem ComesOut.of_proceeds (h : d.Proceeds d') (hr : d'.ComesOut r) : d.ComesOut r := by
  cases hr with
  | value x hp => exact .value x (h.trans hp)
  | carried hp he => exact .carried (h.trans hp) he
  | made hp hk => exact .made (h.trans hp) hk

theorem ComesOut.proceeds {x : Float} (h : d.ComesOut (.ok x, d')) : d.Proceeds d' := by
  cases h with
  | value _ hp => exact hp

theorem ComesOut.fail {c : Cause} (h : c.kind ≠ .lexical) : d.ComesOut (d.fail c) :=
  .made .refl h

theorem proceeds_skipStatement (d : Desk τ μ) : d.Proceeds d.skipStatement := by
  fun_induction skipStatement d with
  | case1 => exact .refl
  | case2 d h ih => exact .head (.advance (Bool.eq_false_iff.2 h)) ih

end Desk

namespace Part

def ComesOut (p : Part τ μ) : Prop := ∀ d : Desk τ μ, d.ComesOut (p.run d)

variable {p : Part τ μ} {d : Desk τ μ}

theorem comesOut_operations (hp : p.ComesOut) (l : Level) (x : Float) (d : Desk τ μ) :
    d.ComesOut (operations l p x d) := by
  fun_induction operations l p x d with
  | case1 x d => exact .value x .refl
  | case2 x d op h e d' hr =>
    have ha := Desk.Proceeds.advance (Level.isBoundary_of_operator? h)
    exact .of_proceeds ha (hr ▸ hp d.advance)
  | case3 x d op h y d' hr c hc =>
    have ha := Desk.Proceeds.advance (Level.isBoundary_of_operator? h)
    have hy : d.advance.ComesOut (.ok y, d') := hr ▸ hp d.advance
    exact .of_proceeds (ha.trans hy.proceeds) (.fail (by simp [Operator.kind_of_apply hc]))
  | case4 x d op h y d' hr z _ ih =>
    have ha := Desk.Proceeds.advance (Level.isBoundary_of_operator? h)
    have hy : d.advance.ComesOut (.ok y, d') := hr ▸ hp d.advance
    exact .of_proceeds (ha.trans hy.proceeds) ih

theorem comesOut_chain (hp : p.ComesOut) (l : Level) : (chain l p).ComesOut := by
  intro d
  have h := hp d
  cases hr : p.run d with
  | mk o d' =>
    rw [hr] at h
    cases o with
    | error e =>
      rw [run_chain_of_error hr]
      exact h
    | ok x =>
      rw [run_chain_of_ok hr]
      exact .of_proceeds h.proceeds (comesOut_operations hp l x d')

theorem comesOut_variableOf (hp : p.ComesOut) (name : String) (h : d.current.isBoundary = false) :
    d.ComesOut (variableOf p name d) := by
  have ha : d.Proceeds (d.declare name).advance := .head (.declare d name) (.single (.advance h))
  unfold variableOf
  simp only
  split
  · rename_i he
    have ha' := ha.trans (.advance (by rw [he]; rfl))
    have hr := hp (d.declare name).advance.advance
    split <;> rename_i o <;> rw [o] at hr
    · exact .value _ ((ha'.trans hr.proceeds).tail (.assign _ name _))
    · exact .of_proceeds ha' hr
  · exact .value _ ha

theorem comesOut_opposite (hp : p.ComesOut) (h : d.current.isBoundary = false) :
    d.ComesOut (opposite p d) := by
  have ha := Desk.Proceeds.advance h
  have hr := hp d.advance
  unfold opposite
  split <;> rename_i o <;> rw [o] at hr
  · exact .value _ (ha.trans hr.proceeds)
  · exact .of_proceeds ha hr

theorem comesOut_bracketed (hp : p.ComesOut) (h : d.current.isBoundary = false) :
    d.ComesOut (bracketed p d) := by
  have ha := Desk.Proceeds.advance h
  have hr := hp d.advance
  unfold bracketed
  split <;> rename_i o <;> rw [o] at hr
  · exact .of_proceeds ha hr
  · have ha' := ha.trans hr.proceeds
    split
    · rename_i he
      exact .carried ha' he
    · split
      · rename_i hc
        exact .value _ (ha'.trans (.advance (by rw [hc]; rfl)))
      · exact .of_proceeds ha' (.fail (by simp [Cause.kind]))

theorem comesOut_missing (d : Desk τ μ) : d.ComesOut (missing d) := by
  unfold missing
  split
  · rename_i he
    exact .carried .refl he
  · exact .fail (by simp [Cause.kind])

theorem comesOut_primaryRun (hp : p.ComesOut) (d : Desk τ μ) : d.ComesOut (primaryRun p d) := by
  have hs : (sumOf p).ComesOut := comesOut_chain (comesOut_chain hp .product) .sum
  unfold primaryRun
  split <;> rename_i h
  · exact .value _ (.advance (by rw [h]; rfl))
  · exact comesOut_variableOf hs _ (by rw [h]; rfl)
  · exact comesOut_opposite hp (by rw [h]; rfl)
  · exact comesOut_bracketed hs (by rw [h]; rfl)
  · exact comesOut_missing d

theorem comesOut_primary (levels : Nat) : (primary levels : Part τ μ).ComesOut := by
  induction levels with
  | zero => exact fun d => .fail (by simp [Cause.kind])
  | succ n ih => exact comesOut_primaryRun ih

theorem comesOut_expression (levels : Nat) : (expression levels : Part τ μ).ComesOut :=
  comesOut_chain (comesOut_chain (comesOut_primary levels) .product) .sum

end Part

namespace Desk

/-- How a statement comes out. What is left of it is read after a report that it makes itself, and
nothing is left behind a token that carries a report. -/
inductive Concludes (d : Desk τ μ) : Outcome × Desk τ μ → Prop
  | value {d' : Desk τ μ} (x : Float) : d.Proceeds d' → d'.current.report? = none →
      Concludes d (.ok x, d')
  | carried {d' : Desk τ μ} {e : Report} : d.Proceeds d' → d'.current.report? = some e →
      Concludes d (.error e, d')
  | made {d₁ d' : Desk τ μ} {c : Cause} : d.Proceeds d₁ → c.kind ≠ .lexical →
      (d₁.fail c).2.Proceeds d' → Concludes d (.error c.report, d')

theorem ComesOut.concludes {d d' : Desk τ μ} {e : Report} (h : d.ComesOut (.error e, d')) :
    d.Concludes (.error e, d'.skipStatement) := by
  cases h with
  | carried hp he =>
    rw [skipStatement_of_isBoundary (Token.isBoundary_of_report? he)]
    exact .carried hp he
  | made hp hk => exact .made hp hk (proceeds_skipStatement _)

theorem comesOut_closeStatement (x : Float) (d : Desk τ μ) : d.ComesOut (closeStatement x d) := by
  unfold closeStatement
  split
  · rename_i he
    exact .carried .refl he
  · split
    · exact .value x .refl
    · exact .fail (by simp [Cause.kind])

theorem concludes_statement (levels : Nat) (d : Desk τ μ) : d.Concludes (statement levels d) := by
  have h := Part.comesOut_expression levels d
  cases hr : (Part.expression levels).run d with
  | mk o d' =>
    rw [hr] at h
    cases o with
    | error e =>
      rw [statement_of_error hr]
      exact h.concludes
    | ok x =>
      have hc := (comesOut_closeStatement x d').of_proceeds h.proceeds
      cases hs : closeStatement x d' with
      | mk o d'' =>
        rw [hs] at hc
        cases o with
        | error e =>
          have he : statement levels d = (.error e, d''.skipStatement) := by
            rw [statement_of_ok hr, hs]
          rw [he]
          exact hc.concludes
        | ok y =>
          have hy : statement levels d = (.ok y, d'') := by rw [statement_of_ok hr, hs]
          rw [hy]
          exact .value y hc.proceeds (run_of_statement_eq_ok hy).2.1

end Desk

end DeskCalculator
