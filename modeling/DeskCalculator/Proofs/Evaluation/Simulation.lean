import DeskCalculator.Proofs.Evaluation.Correspondence

set_option autoImplicit false

namespace DeskCalculator

def Agree {α δ ε : Type} (R : δ → ε → Prop) (a : α × δ) (b : α × ε) : Prop :=
  a.1 = b.1 ∧ R a.2 b.2

theorem Agree.eq_mk {α δ ε : Type} {R : δ → ε → Prop} {a : α × δ} {b : α × ε}
    (h : Agree R a b) : ∃ o d e, a = (o, d) ∧ b = (o, e) ∧ R d e :=
  ⟨a.1, a.2, b.2, rfl, by rw [h.1], h.2⟩

def Tolerance.none : Tolerance := .exact fun _ => False

theorem Tolerance.Meets.agree {δ ε : Type} {R : δ → ε → Prop} {a : Outcome × δ} {b : Outcome × ε}
    (h : Tolerance.none.Meets R a b) : Agree R a b := by
  obtain ⟨_, _, hk⟩ | ⟨_, _, hk⟩ | ⟨ho, hR⟩ := h.outcome_cases
  · exact hk.elim
  · exact hk.elim
  · exact ⟨ho.eq, hR⟩

variable {τ σ μ ν : Type} [TokenSource τ] [TokenSource σ] [Memory μ] [Memory ν]

/-- Desks that correspond go on corresponding whatever a statement does at both. Moving on is asked for
only within a statement. -/
structure Simulation (V : String → String → Prop) (R : Desk τ μ → Desk σ ν → Prop) : Prop where
  current : ∀ {d e}, R d e → d.current.Matches V e.current
  advance : ∀ {d e}, R d e → d.current.isBoundary = false → R d.advance e.advance
  declare : ∀ {d e a b}, R d e → V a b → R (d.declare a) (e.declare b)
  valueOf : ∀ {d e a b}, R d e → V a b → d.valueOf a = e.valueOf b
  assign : ∀ {d e a b x}, R d e → V a b → R (d.assign a x) (e.assign b x)
  fail : ∀ {d e c}, R d e → R (d.fail c).2 (e.fail c).2

def Part.Simulates (R : Desk τ μ → Desk σ ν → Prop) (p : Part τ μ) (q : Part σ ν) : Prop :=
  ∀ d e, R d e → Agree R (p.run d) (q.run e)

variable {V : String → String → Prop} {R : Desk τ μ → Desk σ ν → Prop} {d : Desk τ μ} {e : Desk σ ν}

namespace Correspondence

variable (S : Correspondence .none V R) (n : Nat)
include S

theorem agree_statement (h : R d e) : Agree R (Desk.statement n d) (Desk.statement n e) :=
  (S.meets_statement (Nat.le_refl n) (by simp) h).agree

theorem agree_outcomes (hn : ∀ {d e}, R d e → R d.advance e.advance)
    (hf : ∀ {d e}, R d e → (d.current = .finish ↔ e.current = .finish)) (h : R d e) :
    Agree R (Desk.outcomes n d) (Desk.outcomes n e) := by
  obtain ⟨_, _, hk⟩ | ⟨_, _, hk⟩ | ⟨ho, hR⟩ := S.meets_outcomes (Nat.le_refl n) (by simp) hn hf h
  · exact hk.elim
  · exact hk.elim
  · exact ⟨List.forall₂_eq_eq_eq ▸ ho.imp fun _ _ hs => hs.eq, hR⟩

end Correspondence

namespace Simulation

variable (S : Simulation V R)
include S

theorem correspondence : Correspondence .none V R where
  current := S.current
  advance := S.advance
  declare := S.declare
  valueOf := S.valueOf
  assign h hv hx _ _ := hx ▸ S.assign h hv
  fail := S.fail

theorem simulates_expression (n : Nat) :
    (Part.expression n : Part τ μ).Simulates R (Part.expression n : Part σ ν) :=
  fun _ _ h => (S.correspondence.meets_expression (Nat.le_refl n) (by simp) h).agree

theorem agree_statement (n : Nat) (h : R d e) :
    Agree R (Desk.statement n d) (Desk.statement n e) :=
  S.correspondence.agree_statement n h

theorem agree_outcomes (hn : ∀ {d e}, R d e → R d.advance e.advance)
    (hf : ∀ {d e}, R d e → (d.current = .finish ↔ e.current = .finish)) (n : Nat) (h : R d e) :
    Agree R (Desk.outcomes n d) (Desk.outcomes n e) :=
  S.correspondence.agree_outcomes n hn hf h

end Simulation

end DeskCalculator
