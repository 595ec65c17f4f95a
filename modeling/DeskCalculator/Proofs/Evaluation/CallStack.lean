import DeskCalculator.Depth
import DeskCalculator.Proofs.Evaluation.Machine
import DeskCalculator.Proofs.Lexicon.Joining
import DeskCalculator.Proofs.Source.Sequence

set_option autoImplicit false

namespace DeskCalculator

inductive Routine
  | phrase (q : Rank)
  | primary

def Task.routine : Task → Routine
  | .phrase q _ => .phrase q
  | .operations l _ => .phrase l.rank
  | .primary => .primary

/-- How many calls of a routine and its callers may be active beyond four for each level of nesting. -/
def Routine.allowance : Routine → Nat
  | .phrase .expression => 1
  | .phrase .term => 2
  | .phrase .primary => 3
  | .primary => 0

theorem Routine.allowance_le (r : Routine) : r.allowance ≤ 3 := by
  cases r with
  | phrase q => cases q <;> decide
  | primary => decide

theorem Routine.allowance_operand (l : Level) :
    allowance (.phrase l.operand) = allowance (.phrase l.rank) + 1 := by
  cases l <;> rfl

/-- The calls wait for one of the routine at the depth. Each has made the one before it, and the last was called
for from the outermost level. -/
inductive Pending (limit : Nat) : Routine → (depth : Nat) → List Caller → Prop
  | outermost (q : Rank) : Pending limit (.phrase q) 0 []
  | first {l : Level} {k : Nat} {cs : List Caller} : Pending limit (.phrase l.rank) k cs →
      Pending limit (.phrase l.operand) k (.first l :: cs)
  | right {l : Level} {op : Operator} {x : Float} {k : Nat} {cs : List Caller} :
      Pending limit (.phrase l.rank) k cs → Pending limit (.phrase l.operand) k (.right l op x :: cs)
  | deeper {k : Nat} {cs : List Caller} : k < limit → Pending limit (.phrase .primary) k cs →
      Pending limit .primary (k + 1) (.deeper :: cs)
  | rightSide {id : String} {k : Nat} {cs : List Caller} : Pending limit .primary k cs →
      Pending limit (.phrase .expression) k (.rightSide id :: cs)
  | opposite {k : Nat} {cs : List Caller} : Pending limit .primary k cs →
      Pending limit (.phrase .primary) k (.opposite :: cs)
  | bracket {k : Nat} {cs : List Caller} : Pending limit .primary k cs →
      Pending limit (.phrase .expression) k (.bracket :: cs)

namespace Pending

variable {limit k : Nat} {r : Routine} {cs : List Caller}

theorem depth_le (h : Pending limit r k cs) : k ≤ limit := by
  induction h with
  | outermost => exact Nat.zero_le _
  | deeper hk _ _ => exact hk
  | first _ ih | right _ ih | rightSide _ ih | opposite _ ih | bracket _ ih => exact ih

theorem length_lt (h : Pending limit r k cs) : cs.length + 1 ≤ 4 * k + r.allowance := by
  induction h with
  | outermost q => cases q <;> simp [Routine.allowance]
  | first _ ih | right _ ih =>
    rw [Routine.allowance_operand, List.length_cons]
    omega
  | deeper _ _ ih | rightSide _ ih | opposite _ ih | bracket _ ih =>
    simp only [Routine.allowance, List.length_cons] at ih ⊢
    omega

theorem length_lt_of_limit (h : Pending limit r k cs) : cs.length + 1 ≤ 4 * limit + 3 := by
  have hk := h.depth_le
  have hl := h.length_lt
  have hr := r.allowance_le
  omega

end Pending

namespace Machine

section
variable {τ μ : Type}

def IsOrdered (limit : Nat) (m : Machine τ μ) : Prop :=
  match m.control with
  | .task t => Pending limit t.routine m.depth m.waiting
  | .outcome _ => ∃ r, Pending limit r m.depth m.waiting

variable {limit : Nat} {m : Machine τ μ}

theorem isOrdered_start (q : Rank) (b : Bool) (d : Desk τ μ) : (start q b d).IsOrdered limit :=
  .outermost q

theorem IsOrdered.depth_le (h : m.IsOrdered limit) : m.depth ≤ limit := by
  obtain ⟨c, k, cs, d⟩ := m
  cases c with
  | task t => exact Pending.depth_le h
  | outcome o =>
    obtain ⟨r, hp⟩ := h
    exact hp.depth_le

theorem IsOrdered.active_le (h : m.IsOrdered limit) : m.active ≤ 4 * limit + 3 := by
  obtain ⟨c, k, cs, d⟩ := m
  cases c with
  | task t => exact Pending.length_lt_of_limit h
  | outcome o =>
    obtain ⟨r, hp⟩ := h
    exact Nat.le_of_succ_le hp.length_lt_of_limit

end

variable {τ μ : Type} [TokenSource τ] [Memory μ] {limit k : Nat} {cs : List Caller} {d : Desk τ μ}

omit [Memory μ] in
theorem isOrdered_operate {l : Level} {m : Machine τ μ} (h : Pending limit (.phrase l.rank) m.depth m.waiting)
    (x : Float) : (m.operate l x).IsOrdered limit := by
  unfold operate
  split
  · exact ⟨_, h⟩
  · exact .right h

theorem isOrdered_enter {m : Machine τ μ} (h : Pending limit .primary m.depth m.waiting) :
    m.enter.IsOrdered limit := by
  unfold enter
  split
  · exact ⟨_, h⟩
  · simp only
    split
    · exact .rightSide h
    · exact ⟨_, h⟩
  · exact .opposite h
  · exact .bracket h
  · exact ⟨_, h⟩

theorem isOrdered_resume {r : Routine} {k : Nat} {c : Caller} (h : Pending limit r k (c :: cs)) (d : Desk τ μ)
    (o : Outcome) : (resume ⟨.outcome o, k, cs, d⟩ o c).IsOrdered limit := by
  cases h with
  | first h =>
    cases o with
    | ok x => exact h
    | error e => exact ⟨_, h⟩
  | @right l op x _ _ h =>
    cases o with
    | ok y =>
      simp only [resume, applied]
      split
      · exact h
      · exact ⟨_, h⟩
    | error e => exact ⟨_, h⟩
  | deeper _ h => exact ⟨_, h⟩
  | rightSide h | opposite h | bracket h => exact ⟨_, h⟩

theorem IsOrdered.step {m : Machine τ μ} (h : m.IsOrdered limit) : (m.step limit).IsOrdered limit := by
  obtain ⟨c, k, cs, d⟩ := m
  cases c with
  | task t =>
    cases t with
    | phrase q b =>
      cases q with
      | expression => exact Pending.first (l := .sum) h
      | term => exact Pending.first (l := .product) h
      | primary =>
        cases b with
        | true => exact h
        | false =>
          by_cases hk : limit ≤ k
          · rw [step_tooDeep hk]
            exact ⟨_, h⟩
          · rw [step_deeper (Nat.not_le.1 hk)]
            exact Pending.deeper (Nat.not_le.1 hk) h
    | operations l x => exact isOrdered_operate h x
    | primary => exact isOrdered_enter h
  | outcome o =>
    cases cs with
    | nil => exact h
    | cons c cs =>
      obtain ⟨r, hp⟩ := h
      exact isOrdered_resume hp d o

theorem isOrdered_iterate {m : Machine τ μ} (h : m.IsOrdered limit) (i : Nat) :
    ((step limit)^[i] m).IsOrdered limit := by
  induction i with
  | zero => exact h
  | succ i ih =>
    rw [Function.iterate_succ_apply']
    exact ih.step

theorem iterate_bracket (hk : k < limit) (hc : d.advance.current = .bracketOpen) :
    (Machine.step limit)^[5] ⟨.task (.phrase .expression true), k, cs, d⟩ =
      ⟨.task (.phrase .expression true), k + 1,
        .bracket :: .deeper :: .first .product :: .first .sum :: cs, d.advance⟩ := by
  have h₃ : (Machine.step limit)^[3] ⟨.task (.phrase .expression true), k, cs, d⟩ =
      ⟨.task (.phrase .primary false), k, .first .product :: .first .sum :: cs, d.advance⟩ := rfl
  rw [Function.iterate_add_apply _ 2 3, h₃]
  change Machine.step limit (Machine.step limit _) = _
  rw [step_deeper hk, step_bracket hc]

theorem exists_iterate_brackets (n : Nat) {k : Nat} {d : Desk TokenStream μ} {t : Token} (cs : List Caller)
    (hd : d.source.Delivers (t :: List.replicate n .bracketOpen)) :
    ∃ i cs' d', (Machine.step (k + n))^[i] ⟨.task (.phrase .expression true), k, cs, d⟩ =
      ⟨.task (.phrase .expression true), k + n, cs', d'⟩ ∧ cs'.length = cs.length + 4 * n := by
  induction n generalizing k d t cs with
  | zero => exact ⟨0, cs, d, rfl, rfl⟩
  | succ n ih =>
    have hc : d.advance.current = .bracketOpen := hd.advance.1
    obtain ⟨i, cs', d', hi, hl⟩ :=
      ih (k := k + 1) (.bracket :: .deeper :: .first .product :: .first .sum :: cs) (d := d.advance) hd.advance
    refine ⟨i + 5, cs', d', ?_, ?_⟩
    · rw [Function.iterate_add_apply, iterate_bracket (by omega) hc, show k + (n + 1) = k + 1 + n by omega]
      exact hi
    · simp only [List.length_cons] at hl
      omega

end Machine

theorem tokenize_brackets (n : Nat) :
    tokenize (List.replicate n '(') = List.replicate n .bracketOpen := by
  induction n with
  | zero => exact tokenize_gap (by simp)
  | succ n ih =>
    have hs := Token.stands_of_ofSymbol? (c := '(') rfl (List.replicate n '(')
    have ht := @tokenize_piece [] _ _ (by simp) hs
    rw [ih] at ht
    exact ht

theorem Machine.exists_active_eq (limit : Nat) (m : Store) :
    ∃ i, ((Machine.step limit)^[i]
      (start .expression true ⟨TokenStream.ofText (List.replicate limit '('), m⟩)).active = 4 * limit + 3 := by
  let d : Desk TokenStream Store := ⟨.ofText (List.replicate limit '('), m⟩
  have hd : d.source.Delivers (.finish :: List.replicate limit .bracketOpen) :=
    tokenize_brackets limit ▸ TokenStream.delivers_ofText _
  obtain ⟨i, cs, d', hi, hl⟩ := exists_iterate_brackets limit (k := 0) [] hd
  rw [Nat.zero_add] at hi
  have hs : (Machine.step limit)^[2] ⟨.task (.phrase .expression true), limit, cs, d'⟩ =
      ⟨.task (.phrase .primary true), limit, .first .product :: .first .sum :: cs, d'⟩ := rfl
  refine ⟨2 + i, ?_⟩
  rw [Function.iterate_add_apply, start, hi, hs, active_task]
  simp only [List.length_cons, hl, List.length_nil]
  omega

theorem Depth.calls_le_of_check {calls limit : Nat} {given : Int} (hc : 254 ≤ calls)
    (h : check calls given = .ok limit) : 4 * limit + 3 ≤ calls - 247 := by
  unfold check at h
  split at h
  · rename_i hg
    obtain rfl := Except.ok.inj h
    have hl : Depth.limit calls = max 1 ((calls - 250) / 4) := rfl
    omega
  · cases h

/-- Every call for a phrase, at whatever depth and whatever calls wait for it, ends at the depth where it was made,
with what the part of its rank comes to there. From the outermost level on, the machine goes no deeper than it may,
and has never more calls active than four for each level and three; if the depth is one that may be asked for, that
leaves the calls that are kept for others. Some text keeps as many calls active. -/
theorem Machine.calls_bounded {τ μ : Type} [TokenSource τ] [Memory μ] (limit : Nat) :
    (∀ (q : Rank) (b : Bool) (k : Nat) (cs : List Caller) (d : Desk τ μ),
      let result := (Part.ofRank (limit - k) q).run (d.opened b)
      ∃ n, (step limit)^[n] ⟨.task (.phrase q b), k, cs, d⟩ = ⟨.outcome result.1, k, cs, result.2⟩ ∧
        ∀ i < n, ((step limit)^[i] ⟨.task (.phrase q b), k, cs, d⟩).IsWithin cs) ∧
    (∀ (q : Rank) (b : Bool) (d : Desk τ μ) (i : Nat),
      let m := (step limit)^[i] (start q b d)
      m.depth ≤ limit ∧ m.active ≤ 4 * limit + 3 ∧
      ∀ (calls : Nat) (given : Int), 254 ≤ calls → Depth.check calls given = .ok limit →
        m.active ≤ calls - 247) ∧
    ∃ text : List Char, ∀ m : Store, ∃ i,
      ((step limit)^[i] (start .expression true ⟨TokenStream.ofText text, m⟩)).active = 4 * limit + 3 := by
  refine ⟨exists_iterate_phrase limit, ?_, List.replicate limit '(', exists_active_eq limit⟩
  intro q b d i m
  have hm : m.IsOrdered limit := isOrdered_iterate (isOrdered_start q b d) i
  refine ⟨hm.depth_le, hm.active_le, fun calls given hc h => ?_⟩
  exact hm.active_le.trans (Depth.calls_le_of_check hc h)

end DeskCalculator
