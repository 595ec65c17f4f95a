import DeskCalculator.Proofs.Evaluation.Correspondence
import DeskCalculator.Session

set_option autoImplicit false

namespace DeskCalculator

section
variable {τ μ : Type} [TokenSource τ] [Memory μ]

/-- A desk beside itself, where only the first of two evaluations may fail for the depth. -/
theorem correspondence_eq :
    Correspondence (.exact (· = .nesting)) Eq (Eq (α := Desk τ μ)) where
  current h := h ▸ .refl _
  advance h _ := congrArg Desk.advance h
  declare h hv := by rw [h, hv]
  valueOf h hv := by rw [h, hv]; exact rfl
  assign h hv hx _ _ := by
    subst h hv
    exact congrArg _ hx
  fail h := by rw [h]

theorem Desk.outcomes_of_le {n m : Nat} (h : n ≤ m) {d : Desk τ μ}
    (hd : ∀ o ∈ (outcomes n d).1, o.failsWith .nesting = false) : outcomes m d = outcomes n d := by
  obtain ⟨r, hr, hk⟩ | ⟨_, _, hk⟩ | ⟨hs, hm⟩ := correspondence_eq.meets_outcomes h (fun _ => rfl)
    (fun h => congrArg Desk.advance h) (fun h => by rw [h]) (rfl : d = d)
  · cases (hd _ hr).symm.trans (Outcome.failsWith_error.2 hk)
  · exact hk.elim
  · have ho : (outcomes n d).1 = (outcomes m d).1 :=
      List.forall₂_eq_eq_eq ▸ hs.imp fun _ _ h => h.eq
    exact Prod.ext ho.symm hm.symm

end

namespace Session

/-- A text of which nothing is nested too deeply has the same outcomes, and leaves the same variables and the
same reports, where primaries may be nested deeper. So what is nested too deeply for the greater depth is so for
the smaller one. -/
theorem evaluate_of_le_levels (s : Session) {n : Nat} (h : s.levels ≤ n) (text : List Char) :
    let s' : Session := { s with levels := n }
    ((∀ o ∈ (s.evaluate text).1, o.failsWith .nesting = false) →
      (s'.evaluate text).1 = (s.evaluate text).1 ∧
      (s'.evaluate text).2.store.symbols = (s.evaluate text).2.store.symbols ∧
      (s'.evaluate text).2.store.log = (s.evaluate text).2.store.log) ∧
    ((∃ o ∈ (s'.evaluate text).1, o.failsWith .nesting = true) →
      ∃ o ∈ (s.evaluate text).1, o.failsWith .nesting = true) := by
  intro s'
  have hs : (∀ o ∈ (s.evaluate text).1, o.failsWith .nesting = false) →
      (s'.evaluate text).1 = (s.evaluate text).1 ∧
      (s'.evaluate text).2.store = (s.evaluate text).2.store := by
    intro ho
    have hd := Desk.outcomes_of_le h (d := ⟨TokenStream.ofText text, s.store⟩) ho
    simp only [evaluate, s', hd, and_self]
  constructor
  · intro ho
    obtain ⟨ho', hm⟩ := hs ho
    exact ⟨ho', by rw [hm], by rw [hm]⟩
  · rintro ⟨o, ho, hk⟩
    by_contra hn
    have hf : ∀ o ∈ (s.evaluate text).1, o.failsWith .nesting = false := by simpa using hn
    rw [(hs hf).1] at ho
    rw [hf o ho] at hk
    contradiction

theorem evaluate_brackets_three_four :
    let s : Session := { levels := 3 }
    let s' : Session := { levels := 4 }
    (s'.evaluate "x = (pi)".toList).1 = [.ok 3.14159265359] ∧
      (s'.evaluate "x = (pi)".toList).1 = (s.evaluate "x = (pi)".toList).1 ∧
      (s'.evaluate "x = (pi)".toList).2.store.symbols = (s.evaluate "x = (pi)".toList).2.store.symbols ∧
      (s'.evaluate "x = (pi)".toList).2.store.log = (s.evaluate "x = (pi)".toList).2.store.log ∧
      (∃ o ∈ (s.evaluate "((((pi))))".toList).1, o.failsWith .nesting = true) := by
  intro s s'
  have h3 : s.levels ≤ 4 := by decide
  have hf : ∀ o ∈ (s.evaluate "x = (pi)".toList).1, o.failsWith .nesting = false := by
    set_option maxRecDepth 10000 in decide +kernel
  have ho : (s.evaluate "x = (pi)".toList).1 = [.ok 3.14159265359] := by
    set_option maxRecDepth 10000 in decide +kernel
  obtain ⟨he, hs, hl⟩ := (evaluate_of_le_levels s h3 "x = (pi)".toList).1 hf
  refine ⟨he.trans ho, he, hs, hl, (evaluate_of_le_levels s h3 "((((pi))))".toList).2 ?_⟩
  set_option maxRecDepth 10000 in decide +kernel

end Session

end DeskCalculator
