import DeskCalculator.Proofs.Evaluation.Calls
import Mathlib.Logic.Function.Iterate

/-!
Evaluation by a machine that does one thing after another. It keeps the calls that wait for others, and counts the
levels of nesting that it has gone into. Main statement: every call comes to its end; then the calls that had been
waiting wait again, the counter is what it was, and the outcome is that of the part that the call is for.
-/
set_option autoImplicit false

namespace DeskCalculator

/-- A call that waits for the end of another: a phrase for its first operand or for the right side of an operator, a
primary for what it has gone one level deeper for, and what it has gone deeper for where it needs another phrase. -/
inductive Caller
  | first (l : Level)
  | right (l : Level) (op : Operator) (x : Float)
  | deeper
  | rightSide (id : String)
  | opposite
  | bracket

inductive Control
  | task (t : Task)
  | outcome (o : Outcome)

structure Machine (τ μ : Type) where
  control : Control
  depth : Nat
  /-- The calls that wait, the innermost first. -/
  waiting : List Caller
  desk : Desk τ μ

namespace Machine

section
variable {τ μ : Type}

/-- How many calls are active: those that wait, and the innermost one unless it has ended. -/
def active (m : Machine τ μ) : Nat :=
  match m.control with
  | .task _ => m.waiting.length + 1
  | .outcome _ => m.waiting.length

@[simp] theorem active_task (t : Task) (k : Nat) (cs : List Caller) (d : Desk τ μ) :
    active ⟨.task t, k, cs, d⟩ = cs.length + 1 := rfl

@[simp] theorem active_outcome (o : Outcome) (k : Nat) (cs : List Caller) (d : Desk τ μ) :
    active ⟨.outcome o, k, cs, d⟩ = cs.length := rfl

def start (q : Rank) (readsFirst : Bool) (d : Desk τ μ) : Machine τ μ where
  control := .task (.phrase q readsFirst)
  depth := 0
  waiting := []
  desk := d

def call (m : Machine τ μ) (q : Rank) (readsFirst : Bool) (c : Caller) : Machine τ μ :=
  { m with control := .task (.phrase q readsFirst), waiting := c :: m.waiting }

def finish (m : Machine τ μ) (r : Outcome × Desk τ μ) : Machine τ μ :=
  { m with control := .outcome r.1, desk := r.2 }

/-- A call is active that the callers wait for. -/
def IsWithin (cs : List Caller) (m : Machine τ μ) : Prop := cs <:+ m.waiting ∧ cs.length < m.active

theorem isWithin_task (t : Task) (k : Nat) (cs : List Caller) (d : Desk τ μ) :
    IsWithin cs ⟨.task t, k, cs, d⟩ := by
  simp [IsWithin]

theorem isWithin_waiting (o : Outcome) (k : Nat) (c : Caller) (cs : List Caller) (d : Desk τ μ) :
    IsWithin cs ⟨.outcome o, k, c :: cs, d⟩ := by
  simp [IsWithin]

theorem IsWithin.of_cons {c : Caller} {cs : List Caller} {m : Machine τ μ} (h : IsWithin (c :: cs) m) :
    IsWithin cs m := by
  rcases h with ⟨hs, hl⟩
  rw [List.length_cons] at hl
  exact ⟨(List.suffix_cons c cs).trans hs, by omega⟩

end

variable {τ μ : Type} [TokenSource τ] [Memory μ]

def operate (m : Machine τ μ) (l : Level) (x : Float) : Machine τ μ :=
  match l.operator? m.desk.current with
  | none => m.finish (.ok x, m.desk)
  | some op => m.call l.operand true (.right l op x)

def applied (m : Machine τ μ) (l : Level) : Except Cause Float → Machine τ μ
  | .ok z => { m with control := .task (.operations l z) }
  | .error c => m.finish (m.desk.fail c)

def enter (m : Machine τ μ) : Machine τ μ :=
  match m.desk.current with
  | .number _ x => m.finish (.ok x, m.desk.advance)
  | .name id =>
    let d := (m.desk.declare id).advance
    if d.current = .equal then { m with desk := d }.call .expression true (.rightSide id)
    else m.finish (.ok (d.valueOf id), d)
  | .minus => m.call .primary true .opposite
  | .bracketOpen => m.call .expression true .bracket
  | _ => m.finish (Part.missing m.desk)

def resume (m : Machine τ μ) (o : Outcome) : Caller → Machine τ μ
  | .first l =>
    match o with
    | .ok x => { m with control := .task (.operations l x) }
    | .error e => m.finish (.error e, m.desk)
  | .right l op x =>
    match o with
    | .ok y => m.applied l (op.apply x y)
    | .error e => m.finish (.error e, m.desk)
  -- The level is taken back after a failure as well.
  | .deeper => { m with control := .outcome o, depth := m.depth - 1 }
  | .rightSide id => m.finish (onward (fun x d => (.ok x, d.assign id x)) (o, m.desk))
  | .opposite => m.finish (onward (fun x d => (.ok (-x), d)) (o, m.desk))
  | .bracket => m.finish (onward closed (o, m.desk))

def step (limit : Nat) (m : Machine τ μ) : Machine τ μ :=
  match m.control with
  | .task (.phrase .expression b) => m.call .term b (.first .sum)
  | .task (.phrase .term b) => m.call .primary b (.first .product)
  | .task (.phrase .primary true) =>
    { m with control := .task (.phrase .primary false), desk := m.desk.advance }
  | .task (.phrase .primary false) =>
    if limit ≤ m.depth then m.finish (m.desk.fail .nestedTooDeeply)
    else { m with control := .task .primary, depth := m.depth + 1, waiting := .deeper :: m.waiting }
  | .task (.operations l x) => m.operate l x
  | .task .primary => m.enter
  | .outcome o =>
    match m.waiting with
    | [] => m
    | c :: cs => { m with waiting := cs }.resume o c

variable {limit k : Nat} {cs : List Caller} {d : Desk τ μ}

theorem step_phrase (l : Level) (b : Bool) :
    step limit ⟨.task (.phrase l.rank b), k, cs, d⟩ =
      ⟨.task (.phrase l.operand b), k, .first l :: cs, d⟩ := by
  cases l <;> rfl

theorem step_operations_of_none {l : Level} (h : l.operator? d.current = none) (x : Float) :
    step limit ⟨.task (.operations l x), k, cs, d⟩ = ⟨.outcome (.ok x), k, cs, d⟩ := by
  simp [step, operate, h, finish]

theorem step_operations_of_some {l : Level} {op : Operator} (h : l.operator? d.current = some op) (x : Float) :
    step limit ⟨.task (.operations l x), k, cs, d⟩ =
      ⟨.task (.phrase l.operand true), k, .right l op x :: cs, d⟩ := by
  simp [step, operate, h, call]

theorem step_tooDeep (h : limit ≤ k) :
    step limit ⟨.task (.phrase .primary false), k, cs, d⟩ =
      ⟨.outcome (d.fail .nestedTooDeeply).1, k, cs, (d.fail .nestedTooDeeply).2⟩ :=
  if_pos h

theorem step_deeper (h : k < limit) :
    step limit ⟨.task (.phrase .primary false), k, cs, d⟩ = ⟨.task .primary, k + 1, .deeper :: cs, d⟩ :=
  if_neg (Nat.not_le.2 h)

theorem step_number {ds : String} {x : Float} (h : d.current = .number ds x) :
    step limit ⟨.task .primary, k, cs, d⟩ = ⟨.outcome (.ok x), k, cs, d.advance⟩ := by
  simp [step, enter, h, finish]

theorem step_name {id : String} (h : d.current = .name id) (he : (d.declare id).advance.current ≠ .equal) :
    step limit ⟨.task .primary, k, cs, d⟩ =
      ⟨.outcome (.ok ((d.declare id).advance.valueOf id)), k, cs, (d.declare id).advance⟩ := by
  simp [step, enter, h, he, finish]

theorem step_assignment {id : String} (h : d.current = .name id)
    (he : (d.declare id).advance.current = .equal) :
    step limit ⟨.task .primary, k, cs, d⟩ =
      ⟨.task (.phrase .expression true), k, .rightSide id :: cs, (d.declare id).advance⟩ := by
  simp [step, enter, h, he, call]

theorem step_opposite (h : d.current = .minus) :
    step limit ⟨.task .primary, k, cs, d⟩ = ⟨.task (.phrase .primary true), k, .opposite :: cs, d⟩ := by
  simp [step, enter, h, call]

theorem step_bracket (h : d.current = .bracketOpen) :
    step limit ⟨.task .primary, k, cs, d⟩ = ⟨.task (.phrase .expression true), k, .bracket :: cs, d⟩ := by
  simp [step, enter, h, call]

theorem step_mistakenToken {e : Report} (h : d.current.report? = some e) :
    step limit ⟨.task .primary, k, cs, d⟩ = ⟨.outcome (.error e), k, cs, d⟩ := by
  cases hc : d.current with
  | invalid c =>
    rw [hc] at h
    simp [step, enter, hc, Part.missing, h, finish]
  | _ => simp [hc, Token.report?, Token.cause?] at h

theorem step_missing (hr : d.current.report? = none)
    (hk : d.current.kind ∉ [.number, .name, .minus, .bracketOpen]) :
    step limit ⟨.task .primary, k, cs, d⟩ =
      ⟨.outcome (d.fail .primaryExpected).1, k, cs, (d.fail .primaryExpected).2⟩ := by
  have hm : Part.missing d = d.fail .primaryExpected := by simp only [Part.missing, hr]
  rw [← hm]
  cases hc : d.current <;> simp [hc, Token.kind] at hk <;> simp [step, enter, hc, finish]

/-- The machine comes from the one state to the other, and up to then a call is active that the callers wait for. -/
inductive Works (limit : Nat) (cs : List Caller) : Machine τ μ → Machine τ μ → Prop
  | refl (m : Machine τ μ) : Works limit cs m m
  | head {m m' : Machine τ μ} : m.IsWithin cs → Works limit cs (m.step limit) m' → Works limit cs m m'

namespace Works

variable {m m' m'' : Machine τ μ}

theorem trans (h : Works limit cs m m') (h' : Works limit cs m' m'') : Works limit cs m m'' := by
  induction h with
  | refl => exact h'
  | head hw _ ih => exact .head hw (ih h')

theorem of_cons {c : Caller} (h : Works limit (c :: cs) m m') : Works limit cs m m' := by
  induction h with
  | refl => exact .refl _
  | head hw _ ih => exact .head hw.of_cons ih

theorem exists_iterate (h : Works limit cs m m') :
    ∃ n, (step limit)^[n] m = m' ∧ ∀ i < n, ((step limit)^[i] m).IsWithin cs := by
  induction h with
  | refl => exact ⟨0, rfl, by simp⟩
  | @head m m' hw _ ih =>
    rcases ih with ⟨n, hn, hi⟩
    refine ⟨n + 1, hn, fun i hlt => ?_⟩
    cases i with
    | zero => exact hw
    | succ i => exact hi i (by omega)

variable {t : Task}

theorem single {r : Outcome × Desk τ μ}
    (h : step limit ⟨.task t, k, cs, d⟩ = ⟨.outcome r.1, k, cs, r.2⟩) :
    Works limit cs ⟨.task t, k, cs, d⟩ ⟨.outcome r.1, k, cs, r.2⟩ :=
  .head (isWithin_task t k cs d) (h ▸ .refl _)

theorem call {t' : Task} {k' : Nat} {c : Caller} {d₁ d₂ : Desk τ μ} {o : Outcome}
    (h : step limit ⟨.task t, k, cs, d⟩ = ⟨.task t', k', c :: cs, d₁⟩)
    (hw : ∀ cs, Works limit cs ⟨.task t', k', cs, d₁⟩ ⟨.outcome o, k', cs, d₂⟩)
    (hr : Works limit cs (resume ⟨.outcome o, k', cs, d₂⟩ o c) m') :
    Works limit cs ⟨.task t, k, cs, d⟩ m' := by
  have hin : Works limit cs ⟨.task t', k', c :: cs, d₁⟩ ⟨.outcome o, k', c :: cs, d₂⟩ := (hw (c :: cs)).of_cons
  have hout : Works limit cs ⟨.outcome o, k', c :: cs, d₂⟩ m' := .head (isWithin_waiting o k' c cs d₂) hr
  exact .head (isWithin_task t k cs d) (h ▸ hin.trans hout)

end Works

/-- Whatever calls wait, the machine does a task for them. It ends at the depth where it has begun, with what the
task gives. -/
theorem works_of_gives {t : Task} {r : Outcome × Desk τ μ} (h : t.Gives limit k d r) (cs : List Caller) :
    Works limit cs ⟨.task t, k, cs, d⟩ ⟨.outcome r.1, k, cs, r.2⟩ := by
  -- For a call within, the caller is one more that waits.
  induction h generalizing cs with
  | firstOperandFails _ ih => exact .call (step_phrase _ _) ih (.refl _)
  | chain _ _ ih₁ ih₂ => exact .call (step_phrase _ _) ih₁ (ih₂ cs)
  | noOperator ho => exact .single (step_operations_of_none ho _)
  | operandFails ho _ ih => exact .call (step_operations_of_some ho _) ih (.refl _)
  | operatorFails ho _ ha ih =>
    refine .call (step_operations_of_some ho _) ih ?_
    rw [resume, ha]
    exact .refl _
  | operator ho _ ha _ ih₁ ih₂ =>
    refine .call (step_operations_of_some ho _) ih₁ ?_
    rw [resume, ha]
    exact ih₂ cs
  | readsFirst _ ih => exact .head (isWithin_task _ _ _ _) (ih cs)
  | tooDeep hk => exact .single (step_tooDeep hk)
  | deeper hk _ ih => exact .call (step_deeper hk) ih (.refl _)
  | number hc => exact .single (step_number hc)
  | name hc he => exact .single (step_name hc he)
  | rightSideFails hc he _ ih => exact .call (step_assignment hc he) ih (.refl _)
  | assignment hc he _ ih => exact .call (step_assignment hc he) ih (.refl _)
  | oppositeFails hc _ ih => exact .call (step_opposite hc) ih (.refl _)
  | opposite hc _ ih => exact .call (step_opposite hc) ih (.refl _)
  | bracketFails hc _ ih => exact .call (step_bracket hc) ih (.refl _)
  | bracketCutShort hc _ hr ih =>
    refine .call (step_bracket hc) ih ?_
    simp only [resume, onward, closed, hr]
    exact .refl _
  | bracketUnclosed hc _ hr hb ih =>
    refine .call (step_bracket hc) ih ?_
    simp only [resume, onward, closed, hr, if_neg hb]
    exact .refl _
  | bracket hc _ hb ih =>
    refine .call (step_bracket hc) ih ?_
    simp only [resume, onward, closed, hb]
    exact .refl _
  | mistakenToken hr => exact .single (step_mistakenToken hr)
  | missing hr hk => exact .single (step_missing hr hk)

theorem exists_iterate_phrase (limit : Nat) (q : Rank) (b : Bool) (k : Nat) (cs : List Caller) (d : Desk τ μ) :
    let r := (Part.ofRank (limit - k) q).run (d.opened b)
    ∃ n, (step limit)^[n] ⟨.task (.phrase q b), k, cs, d⟩ = ⟨.outcome r.1, k, cs, r.2⟩ ∧
      ∀ i < n, ((step limit)^[i] ⟨.task (.phrase q b), k, cs, d⟩).IsWithin cs := by
  have h := Task.gives_phrase_iff.2 (rfl : (Part.ofRank (limit - k) q).run (d.opened b) = _)
  exact (works_of_gives h cs).exists_iterate

end Machine

end DeskCalculator
