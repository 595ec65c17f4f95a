import DeskCalculator.Statement

set_option autoImplicit false

namespace DeskCalculator

/-- Does something with a value that has been read, and hands an error on. -/
def onward {δ : Type} (go : Float → δ → Outcome × δ) : Outcome × δ → Outcome × δ
  | (.ok x, d) => go x d
  | (.error e, d) => (.error e, d)

variable {τ μ : Type} [TokenSource τ] [Memory μ]

def closed (x : Float) (d : Desk τ μ) : Outcome × Desk τ μ :=
  match d.current.report? with
  | some e => (.error e, d)
  | none => if d.current = .bracketClose then (.ok x, d.advance) else d.fail .bracketExpected

namespace Part

variable {p : Part τ μ} {d : Desk τ μ}

theorem run_chain_eq_onward (l : Level) (p : Part τ μ) (d : Desk τ μ) :
    (chain l p).run d = onward (operations l p) (p.run d) := by
  cases h : p.run d with
  | mk o d' =>
    cases o with
    | error e => exact run_chain_of_error h
    | ok x => exact run_chain_of_ok h

def applied (l : Level) (p : Part τ μ) (d : Desk τ μ) : Except Cause Float → Outcome × Desk τ μ
  | .error c => d.fail c
  | .ok z => operations l p z d

theorem operations_eq_onward {l : Level} {op : Operator} (h : l.operator? d.current = some op)
    (x : Float) :
    operations l p x d = onward (fun y d' => applied l p d' (op.apply x y)) (p.run d.advance) := by
  cases hr : p.run d.advance with
  | mk o d' =>
    cases o with
    | error e => exact operations_of_error h hr
    | ok y =>
      rw [operations_of_ok h hr]
      rfl

theorem variableOf_eq_onward (p : Part τ μ) {name : String}
    (h : (d.declare name).advance.current = .equal) :
    variableOf p name d =
      onward (fun x d' => (.ok x, d'.assign name x)) (p.run (d.declare name).advance.advance) := by
  unfold variableOf
  simp only [h, if_true]
  split <;> rename_i hr <;> rw [hr] <;> rfl

theorem opposite_eq_onward (p : Part τ μ) (d : Desk τ μ) :
    opposite p d = onward (fun x d' => (.ok (-x), d')) (p.run d.advance) := by
  unfold opposite
  split <;> rename_i h <;> rw [h] <;> rfl

theorem bracketed_eq_onward (p : Part τ μ) (d : Desk τ μ) :
    bracketed p d = onward closed (p.run d.advance) := by
  unfold bracketed
  split <;> rename_i h <;> rw [h] <;> rfl

end Part

namespace Desk

def settle : Outcome × Desk τ μ → Outcome × Desk τ μ
  | (.ok x, d) => (.ok x, d)
  | (.error e, d) => (.error e, d.skipStatement)

theorem statement_eq_onward (levels : Nat) (d : Desk τ μ) :
    statement levels d = settle (onward closeStatement ((Part.expression levels).run d)) := by
  cases h : (Part.expression levels).run d with
  | mk o d' =>
    cases o with
    | error e => exact statement_of_error h
    | ok x =>
      rw [statement_of_ok h]
      rfl

end Desk

end DeskCalculator
