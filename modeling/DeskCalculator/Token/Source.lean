import DeskCalculator.Token.Basic

set_option autoImplicit false

namespace DeskCalculator

/-- Delivers tokens one after another. Each token but the end takes something from what is to come, so
that the end is reached. -/
class TokenSource (τ : Type) where
  current : τ → Token
  advance : τ → τ
  rest : τ → Nat
  rest_advance_le : ∀ s, rest (advance s) ≤ rest s
  rest_advance_lt : ∀ s, current (advance s) ≠ .finish → rest (advance s) < rest s

namespace TokenSource

variable {τ : Type} [TokenSource τ]

def size (s : τ) : Nat := rest s + if current s = .finish then 0 else 1

theorem size_advance_le_rest (s : τ) : size (advance s) ≤ rest s := by
  have h1 := rest_advance_le s
  have h2 := rest_advance_lt s
  unfold size
  split
  · omega
  · have := h2 ‹_›
    omega

theorem size_advance_lt {s : τ} (h : (current s).isBoundary = false) :
    size (advance s) < size s := by
  have h1 := size_advance_le_rest s
  have h2 : size s = rest s + 1 := by simp [size, Token.ne_finish_of_isBoundary h]
  omega

/-- The second source is the first after moving past tokens none of which ends a statement. -/
inductive Reaches : τ → τ → Prop
  | refl (s : τ) : Reaches s s
  | step {s t : τ} : (current s).isBoundary = false → Reaches (advance s) t → Reaches s t

namespace Reaches

theorem trans {s t u : τ} (h : Reaches s t) (h' : Reaches t u) : Reaches s u := by
  induction h with
  | refl => exact h'
  | step hb _ ih => exact .step hb (ih h')

theorem advance {s : τ} (h : (current s).isBoundary = false) : Reaches s (advance s) :=
  .step h (.refl _)

theorem size_le {s t : τ} (h : Reaches s t) : size t ≤ size s := by
  induction h with
  | refl => exact Nat.le_refl _
  | step hb _ ih => exact Nat.le_of_lt (Nat.lt_of_le_of_lt ih (size_advance_lt hb))

theorem rest_le {s t : τ} (h : Reaches s t) : rest t ≤ rest s := by
  induction h with
  | refl => exact Nat.le_refl _
  | @step s t hb h ih => exact Nat.le_trans ih (rest_advance_le s)

theorem eq_of_boundary {s t : τ} (h : Reaches s t) (hb : (current s).isBoundary = true) : t = s := by
  cases h with
  | refl => rfl
  | step hb' _ => simp [hb] at hb'

theorem size_lt {s t : τ} (hb : (current s).isBoundary = false)
    (h : Reaches (TokenSource.advance s) t) : size t < size s :=
  Nat.lt_of_le_of_lt h.size_le (size_advance_lt hb)

end Reaches

end TokenSource

end DeskCalculator
