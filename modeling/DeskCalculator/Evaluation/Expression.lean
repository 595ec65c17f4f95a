import DeskCalculator.Evaluation.Part

/-!
Expressions: sums of products of primaries. A primary is a number, a variable with or without a value
assigned to it, a primary after a minus, or an expression between brackets. A primary may contain others
only so deep.
-/
set_option autoImplicit false

namespace DeskCalculator.Part

variable {τ μ : Type} [TokenSource τ] [Memory μ]

def tooDeep : Part τ μ where
  run d := d.fail .nestedTooDeeply
  reaches d := .refl d

def sumOf (p : Part τ μ) : Part τ μ := chain .sum (chain .product p)

def number (x : Float) (d : Desk τ μ) : Outcome × Desk τ μ := (.ok x, d.advance)

/-- A variable, which is created. If a value is assigned to it, this value is evaluated before the
variable gets it. -/
def variableOf (assigned : Part τ μ) (name : String) (d : Desk τ μ) : Outcome × Desk τ μ :=
  let d' := (d.declare name).advance
  if d'.current = .equal then
    match assigned.run d'.advance with
    | (.ok x, d'') => (.ok x, d''.assign name x)
    | (.error e, d'') => (.error e, d'')
  else (.ok (d'.valueOf name), d')

def opposite (operand : Part τ μ) (d : Desk τ μ) : Outcome × Desk τ μ :=
  match operand.run d.advance with
  | (.ok x, d') => (.ok (-x), d')
  | (.error e, d') => (.error e, d')

/-- An expression between brackets. Where the closing bracket should stand, a token that carries a report
fails with that report, which is not made again. -/
def bracketed (inner : Part τ μ) (d : Desk τ μ) : Outcome × Desk τ μ :=
  match inner.run d.advance with
  | (.error e, d') => (.error e, d')
  | (.ok x, d') =>
    match d'.current.report? with
    | some e => (.error e, d')
    | none => if d'.current = .bracketClose then (.ok x, d'.advance) else d'.fail .bracketExpected

def missing (d : Desk τ μ) : Outcome × Desk τ μ :=
  match d.current.report? with
  | some e => (.error e, d)
  | none => d.fail .primaryExpected

def primaryRun (inner : Part τ μ) (d : Desk τ μ) : Outcome × Desk τ μ :=
  match d.current with
  | .number _ x => number x d
  | .name id => variableOf (sumOf inner) id d
  | .minus => opposite inner d
  | .bracketOpen => bracketed (sumOf inner) d
  | _ => missing d

theorem primaryRun_of_isBoundary {inner : Part τ μ} {d : Desk τ μ}
    (h : d.current.isBoundary = true) : primaryRun inner d = missing d := by
  unfold primaryRun
  split <;> rename_i hc <;> first | rfl | (rw [hc] at h; contradiction)

theorem reaches_variableOf (assigned : Part τ μ) (name : String) {d : Desk τ μ}
    (h : d.current.isBoundary = false) : d.Reaches (variableOf assigned name d).2 := by
  have h1 : d.Reaches (d.declare name).advance := Desk.Reaches.advance (d := d.declare name) h
  unfold variableOf
  simp only
  split
  · rename_i he
    have h2 := (h1.trans (.advance (by rw [he]; rfl))).trans
      (assigned.reaches (d.declare name).advance.advance)
    split <;> rename_i hr <;> rw [hr] at h2 <;> exact h2
  · exact h1

theorem reaches_opposite (operand : Part τ μ) {d : Desk τ μ} (h : d.current.isBoundary = false) :
    d.Reaches (opposite operand d).2 := by
  have h1 := (Desk.Reaches.advance h).trans (operand.reaches d.advance)
  unfold opposite
  split <;> rename_i hr <;> rw [hr] at h1 <;> exact h1

theorem reaches_bracketed (inner : Part τ μ) {d : Desk τ μ} (h : d.current.isBoundary = false) :
    d.Reaches (bracketed inner d).2 := by
  have h1 := (Desk.Reaches.advance h).trans (inner.reaches d.advance)
  unfold bracketed
  split <;> rename_i hr <;> rw [hr] at h1
  · exact h1
  · split
    · exact h1
    · split
      · rename_i hc
        exact h1.trans (.advance (by rw [hc]; rfl))
      · exact h1

theorem reaches_missing (d : Desk τ μ) : d.Reaches (missing d).2 := by
  unfold missing
  split <;> exact .refl d

theorem reaches_primaryRun (inner : Part τ μ) (d : Desk τ μ) :
    d.Reaches (primaryRun inner d).2 := by
  unfold primaryRun
  split <;> rename_i h
  · exact .advance (by rw [h]; rfl)
  · exact reaches_variableOf _ _ (by rw [h]; rfl)
  · exact reaches_opposite _ (by rw [h]; rfl)
  · exact reaches_bracketed _ (by rw [h]; rfl)
  · exact reaches_missing d

/-- A primary, and how many primaries may stand one within another, this one among them. -/
def primary : (levels : Nat) → Part τ μ
  | 0 => tooDeep
  | n + 1 => { run := primaryRun (primary n), reaches := reaches_primaryRun (primary n) }

def term (levels : Nat) : Part τ μ := chain .product (primary levels)

def expression (levels : Nat) : Part τ μ := chain .sum (term levels)

end DeskCalculator.Part
