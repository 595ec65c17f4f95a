import DeskCalculator.Desk
import DeskCalculator.Operator

/-!
Parts of a statement, and sums and products of parts. A part is evaluated while it is read: it begins at
the current token and leaves the first token that does not belong to it as the current one.
-/
set_option autoImplicit false

namespace DeskCalculator

/-- A part of a statement. It moves past no token that ends a statement. -/
structure Part (τ μ : Type) [TokenSource τ] where
  run : Desk τ μ → Outcome × Desk τ μ
  reaches : ∀ d : Desk τ μ, d.Reaches (run d).2

namespace Part

variable {τ μ : Type} [TokenSource τ] [Memory μ]

/-- Evaluates the operations of a level that follow, from left to right. The first that fails is the
last that is looked at. -/
def operations (l : Level) (p : Part τ μ) (x : Float) (d : Desk τ μ) : Outcome × Desk τ μ :=
  match _h : l.operator? d.current with
  | none => (.ok x, d)
  | some op =>
    match _hr : p.run d.advance with
    | (.error e, d') => (.error e, d')
    | (.ok y, d') =>
      match op.apply x y with
      | .error c => d'.fail c
      | .ok z => operations l p z d'
termination_by TokenSource.size d.source
decreasing_by
  have h := p.reaches d.advance
  rw [_hr] at h
  exact h.size_lt (Level.isBoundary_of_operator? _h)

theorem operations_of_none {l : Level} {p : Part τ μ} {x : Float} {d : Desk τ μ}
    (h : l.operator? d.current = none) : operations l p x d = (.ok x, d) := by
  rw [operations]
  split
  · rfl
  · rename_i op h'
    rw [h] at h'
    contradiction

theorem operations_of_error {l : Level} {p : Part τ μ} {x : Float} {d d' : Desk τ μ}
    {op : Operator} {e : Report} (h : l.operator? d.current = some op)
    (hr : p.run d.advance = (.error e, d')) : operations l p x d = (.error e, d') := by
  rw [operations]
  split
  · rename_i h'
    rw [h] at h'
    contradiction
  · split <;> rename_i hr' <;> rw [hr] at hr' <;> cases hr'
    rfl

theorem operations_of_ok {l : Level} {p : Part τ μ} {x y : Float} {d d' : Desk τ μ}
    {op : Operator} (h : l.operator? d.current = some op) (hr : p.run d.advance = (.ok y, d')) :
    operations l p x d =
      match op.apply x y with
      | .error c => d'.fail c
      | .ok z => operations l p z d' := by
  rw [operations]
  split
  · rename_i h'
    rw [h] at h'
    contradiction
  · rename_i op' h'
    obtain rfl : op = op' := Option.some.inj (h.symm.trans h')
    split <;> rename_i hr' <;> rw [hr] at hr' <;> cases hr'
    split <;> rfl

theorem reaches_operations (l : Level) (p : Part τ μ) (x : Float) (d : Desk τ μ) :
    d.Reaches (operations l p x d).2 := by
  fun_induction operations l p x d with
  | case1 => exact .refl _
  | case2 x d op h e d' hr =>
    have hp := p.reaches d.advance
    rw [hr] at hp
    exact .trans (.advance (Level.isBoundary_of_operator? h)) hp
  | case3 x d op h y d' hr c =>
    have hp := p.reaches d.advance
    rw [hr] at hp
    exact .trans (.advance (Level.isBoundary_of_operator? h)) hp
  | case4 x d op h y d' hr z _ ih =>
    have hp := p.reaches d.advance
    rw [hr] at hp
    exact .trans (.trans (.advance (Level.isBoundary_of_operator? h)) hp) ih

def chain (l : Level) (p : Part τ μ) : Part τ μ where
  run d :=
    match p.run d with
    | (.error e, d') => (.error e, d')
    | (.ok x, d') => operations l p x d'
  reaches d := by
    have h := p.reaches d
    split
    · rename_i hr
      rw [hr] at h
      exact h
    · rename_i hr
      rw [hr] at h
      exact h.trans (reaches_operations l p _ _)

theorem run_chain_of_error {l : Level} {p : Part τ μ} {d d' : Desk τ μ} {e : Report}
    (h : p.run d = (.error e, d')) : (chain l p).run d = (.error e, d') := by
  simp [chain, h]

theorem run_chain_of_ok {l : Level} {p : Part τ μ} {d d' : Desk τ μ} {x : Float}
    (h : p.run d = (.ok x, d')) : (chain l p).run d = operations l p x d' := by
  simp [chain, h]

end Part

end DeskCalculator
