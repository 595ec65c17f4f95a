/-!
Line breaks of an input: a carriage return, with or without a line feed after it, counts as one line
feed, and a line feed ends a line.
-/
set_option autoImplicit false

namespace DeskCalculator.Text

/-- Every carriage return, and the line feed that may follow it, becomes one line feed. -/
def unifyBreaks : List Char → List Char
  | [] => []
  | '\r' :: '\n' :: cs => '\n' :: unifyBreaks cs
  | c :: cs => (if c = '\r' then '\n' else c) :: unifyBreaks cs

/-- The lines of a text, without their line feeds. What follows the last line feed is a line only if
it is not empty. -/
def lines : List Char → List (List Char)
  | [] => []
  | c :: cs =>
    if c = '\n' then [] :: lines cs
    else match lines cs with
      | [] => [[c]]
      | l :: ls => (c :: l) :: ls

theorem lines_of_not_mem {line : List Char} (h : '\n' ∉ line) (hn : line ≠ []) :
    lines line = [line] := by
  induction line with
  | nil => contradiction
  | cons c cs ih =>
    rw [List.mem_cons, not_or] at h
    rw [lines, if_neg (Ne.symm h.1)]
    cases cs with
    | nil => rfl
    | cons d ds => rw [ih h.2 (by simp)]

theorem lines_append {line : List Char} (h : '\n' ∉ line) (rest : List Char) :
    lines (line ++ '\n' :: rest) = line :: lines rest := by
  induction line with
  | nil => rfl
  | cons c cs ih =>
    rw [List.mem_cons, not_or] at h
    rw [List.cons_append, lines, if_neg (Ne.symm h.1), ih h.2]

@[elab_as_elim]
theorem lines_induction {P : List Char → Prop} (unended : ∀ line, '\n' ∉ line → P line)
    (ended : ∀ line rest, '\n' ∉ line → P rest → P (line ++ '\n' :: rest)) (text : List Char) :
    P text := by
  suffices h : ∀ line, '\n' ∉ line → P (line ++ text) from h [] (by simp)
  induction text with
  | nil =>
    intro line hl
    rw [List.append_nil]
    exact unended line hl
  | cons c cs ih =>
    intro line hl
    by_cases hc : c = '\n'
    · subst hc
      exact ended line cs hl (ih [] (by simp))
    · have hl' : '\n' ∉ line ++ [c] := by simp [hl, Ne.symm hc]
      simpa using ih (line ++ [c]) hl'

end DeskCalculator.Text
