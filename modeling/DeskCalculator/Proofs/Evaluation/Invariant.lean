import DeskCalculator.Statement

set_option autoImplicit false

namespace DeskCalculator

variable {τ μ : Type} [TokenSource τ] [Memory μ]

/-- What holds at a desk goes on holding whatever is done there within a statement. An assignment is
completed when its right side has come out. -/
structure Desk.Invariant (I : Desk τ μ → Prop) : Prop where
  pass : ∀ {d}, I d → d.current.isBoundary = false → (∀ name, d.current ≠ .name name) → I d.advance
  lookup : ∀ {d name}, I d → d.current = .name name → I (d.declare name).advance
  complete : ∀ {d d' name k x}, I d → d.current = .name name →
    (d.declare name).advance.current = .equal →
    (Part.expression k).run (d.declare name).advance.advance = (.ok x, d') → I d' →
    I (d'.assign name x)
  fail : ∀ {d c}, I d → I (d.fail c).2

def Part.Preserves (p : Part τ μ) (I : Desk τ μ → Prop) : Prop := ∀ d, I d → I (p.run d).2

namespace Desk.Invariant

variable {I : Desk τ μ → Prop} (hI : Invariant I) {p : Part τ μ} {d d' : Desk τ μ}
include hI

theorem pass_operator (h : I d) {l : Level} {op : Operator} (ho : l.operator? d.current = some op) :
    I d.advance := by
  refine hI.pass h (Level.isBoundary_of_operator? ho) ?_
  intro name hn
  rw [hn] at ho
  cases l <;> simp [Level.operator?] at ho

theorem pass_token (h : I d) {t : Token} (ht : d.current = t) (hb : t.isBoundary = false)
    (hn : t.kind ≠ .name) : I d.advance := by
  refine hI.pass h (ht ▸ hb) ?_
  rintro name hc
  exact hn (by rw [← ht, hc]; rfl)

theorem operations (hp : p.Preserves I) (l : Level) (x : Float) (h : I d) :
    I (Part.operations l p x d).2 := by
  fun_induction Part.operations l p x d with
  | case1 x d => exact h
  | case2 x d op ho e d' hr => simpa [hr] using hp _ (hI.pass_operator h ho)
  | case3 x d op ho y d' hr c hc =>
    have hd : I d' := by simpa [hr] using hp _ (hI.pass_operator h ho)
    exact hI.fail hd
  | case4 x d op ho y d' hr z hz ih =>
    have hd : I d' := by simpa [hr] using hp _ (hI.pass_operator h ho)
    exact ih hd

theorem preserves_chain (hp : p.Preserves I) (l : Level) : (Part.chain l p).Preserves I := by
  intro d h
  have hd := hp d h
  cases hr : p.run d with
  | mk o d' =>
    rw [hr] at hd
    cases o with
    | error e => rwa [Part.run_chain_of_error hr]
    | ok x =>
      rw [Part.run_chain_of_ok hr]
      exact hI.operations hp l x hd

theorem variableOf {k : Nat} (hp : (Part.expression k).Preserves I) {name : String} (h : I d)
    (hc : d.current = .name name) : I (Part.variableOf (Part.expression k) name d).2 := by
  have ha := hI.lookup h hc
  unfold Part.variableOf
  simp only
  split
  · rename_i he
    have hd := hp _ (hI.pass_token ha he rfl (by simp [Token.kind]))
    split <;> rename_i hr <;> rw [hr] at hd
    · exact hI.complete h hc he hr hd
    · exact hd
  · exact ha

theorem opposite (hp : p.Preserves I) (h : I d) (hc : d.current = .minus) :
    I (Part.opposite p d).2 := by
  have hd := hp _ (hI.pass_token h hc rfl (by simp [Token.kind]))
  unfold Part.opposite
  split <;> rename_i hr <;> rw [hr] at hd <;> exact hd

theorem bracketed (hp : p.Preserves I) (h : I d) (hc : d.current = .bracketOpen) :
    I (Part.bracketed p d).2 := by
  have hd := hp _ (hI.pass_token h hc rfl (by simp [Token.kind]))
  unfold Part.bracketed
  split <;> rename_i hr <;> rw [hr] at hd
  · exact hd
  · split
    · exact hd
    · split
      · rename_i hb
        exact hI.pass_token hd hb rfl (by simp [Token.kind])
      · exact hI.fail hd

theorem missing (h : I d) : I (Part.missing d).2 := by
  unfold Part.missing
  split
  · exact h
  · exact hI.fail h

theorem preserves_primary (n : Nat) : (Part.primary n).Preserves I := by
  induction n with
  | zero => exact fun d h => hI.fail h
  | succ n ih =>
    have hs : (Part.expression n).Preserves I :=
      hI.preserves_chain (hI.preserves_chain ih .product) .sum
    intro d h
    change I (Part.primaryRun (Part.primary n) d).2
    unfold Part.primaryRun
    split <;> rename_i hc
    · exact hI.pass_token h hc rfl (by simp [Token.kind])
    · exact hI.variableOf hs h hc
    · exact hI.opposite ih h hc
    · exact hI.bracketed hs h hc
    · exact hI.missing h

theorem preserves_expression (n : Nat) : (Part.expression n).Preserves I :=
  hI.preserves_chain (hI.preserves_chain (hI.preserves_primary n) .product) .sum

end Desk.Invariant

end DeskCalculator
