import DeskCalculator.Evaluation.Expression

set_option autoImplicit false

namespace DeskCalculator

namespace Part

variable {τ μ : Type} [TokenSource τ] [Memory μ] {p : Part τ μ} {d d' : Desk τ μ}

/-- Operations come out where no operator of their level stands, at a place where one of their parts came out. -/
theorem stops_operations {Q : Desk τ μ → Prop} (hp : ∀ d d' x, p.run d = (.ok x, d') → Q d')
    {l : Level} {x y : Float} (hd : Q d) (h : operations l p x d = (.ok y, d')) :
    Q d' ∧ l.operator? d'.current = none := by
  fun_induction operations l p x d with
  | case1 x d ho =>
    cases h
    exact ⟨hd, ho⟩
  | case2 => cases h
  | case3 => cases h
  | case4 x d op ho z d₁ hr w _ ih => exact ih (hp _ _ _ hr) h

theorem stops_chain {Q : Desk τ μ → Prop} (hp : ∀ d d' x, p.run d = (.ok x, d') → Q d') {l : Level}
    {x : Float} (h : (chain l p).run d = (.ok x, d')) : Q d' ∧ l.operator? d'.current = none := by
  cases hr : p.run d with
  | mk o d₁ =>
    cases o with
    | error e =>
      rw [run_chain_of_error hr] at h
      cases h
    | ok y =>
      rw [run_chain_of_ok hr] at h
      exact stops_operations hp (hp _ _ _ hr) h

theorem operator?_of_run_expression {n : Nat} {x : Float}
    (h : (expression n).run d = (.ok x, d')) (l : Level) : l.operator? d'.current = none := by
  have ht : ∀ (d d' : Desk τ μ) (x : Float), (term n).run d = (.ok x, d') →
      Level.product.operator? d'.current = none :=
    fun d d' x h => (stops_chain (Q := fun _ => True) (fun _ _ _ _ => trivial) h).2
  obtain ⟨hp, hs⟩ := stops_chain ht h
  cases l
  · exact hs
  · exact hp

/-- An assignment at the start of an expression is all of it. -/
theorem run_expression_assignment {n : Nat} {name : String} (hc : d.current = .name name)
    (he : (d.declare name).advance.current = .equal) :
    (expression (n + 1)).run d =
      match (expression n).run (d.declare name).advance.advance with
      | (.ok x, d') => (.ok x, d'.assign name x)
      | (.error e, d') => (.error e, d') := by
  have hv : (primary (n + 1)).run d =
      match (expression n).run (d.declare name).advance.advance with
      | (.ok x, d') => (.ok x, d'.assign name x)
      | (.error e, d') => (.error e, d') := by
    change primaryRun (primary n) d = _
    unfold primaryRun
    rw [hc]
    change variableOf (expression n) name d = _
    unfold variableOf
    exact if_pos he
  cases hr : (expression n).run (d.declare name).advance.advance with
  | mk o d' =>
    rw [hr] at hv
    cases o with
    | error e => exact run_chain_of_error (run_chain_of_error hv)
    | ok x =>
      have hs := operator?_of_run_expression hr
      have hn : ∀ l : Level, l.operator? (d'.assign name x).current = none := hs
      have ht : (term (n + 1)).run d = (.ok x, d'.assign name x) := by
        rw [term, run_chain_of_ok hv, operations_of_none (hn .product)]
      rw [expression, run_chain_of_ok ht, operations_of_none (hn .sum)]

end Part

end DeskCalculator
