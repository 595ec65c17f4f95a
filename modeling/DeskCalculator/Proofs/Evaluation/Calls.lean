import DeskCalculator.Proofs.Evaluation.Onward
import DeskCalculator.Proofs.Grammar.Tree

/-!
Evaluation as tasks that call for one another. A phrase is called for with its first token as the current one, or
that token is to be read first; whoever calls for a primary within another goes one level deeper. Main statement:
every task gives one result, which is that of the part of its rank.
-/
set_option autoImplicit false

namespace DeskCalculator

namespace Level

def operand : Level → Rank
  | .sum => .term
  | .product => .primary

def rank : Level → Rank
  | .sum => .expression
  | .product => .term

end Level

inductive Task
  | phrase (r : Rank) (readsFirst : Bool)
  | operations (l : Level) (x : Float)
  | primary

variable {τ μ : Type} [TokenSource τ] [Memory μ]

def Desk.opened (readsFirst : Bool) (d : Desk τ μ) : Desk τ μ := if readsFirst then d.advance else d

/-- What a task gives at a desk, called for within so many primaries. -/
inductive Task.Gives (limit : Nat) : Task → (depth : Nat) → Desk τ μ → Outcome × Desk τ μ → Prop
  | firstOperandFails {l : Level} {b : Bool} {k : Nat} {d d' : Desk τ μ} {e : Report} :
      Gives limit (.phrase l.operand b) k d (.error e, d') →
      Gives limit (.phrase l.rank b) k d (.error e, d')
  | chain {l : Level} {b : Bool} {k : Nat} {d d' : Desk τ μ} {x : Float} {r : Outcome × Desk τ μ} :
      Gives limit (.phrase l.operand b) k d (.ok x, d') → Gives limit (.operations l x) k d' r →
      Gives limit (.phrase l.rank b) k d r
  | noOperator {l : Level} {x : Float} {k : Nat} {d : Desk τ μ} : l.operator? d.current = none →
      Gives limit (.operations l x) k d (.ok x, d)
  | operandFails {l : Level} {op : Operator} {x : Float} {k : Nat} {d d' : Desk τ μ} {e : Report} :
      l.operator? d.current = some op → Gives limit (.phrase l.operand true) k d (.error e, d') →
      Gives limit (.operations l x) k d (.error e, d')
  | operatorFails {l : Level} {op : Operator} {x y : Float} {k : Nat} {d d' : Desk τ μ} {c : Cause} :
      l.operator? d.current = some op → Gives limit (.phrase l.operand true) k d (.ok y, d') →
      op.apply x y = .error c → Gives limit (.operations l x) k d (d'.fail c)
  | operator {l : Level} {op : Operator} {x y z : Float} {k : Nat} {d d' : Desk τ μ}
      {r : Outcome × Desk τ μ} :
      l.operator? d.current = some op → Gives limit (.phrase l.operand true) k d (.ok y, d') →
      op.apply x y = .ok z → Gives limit (.operations l z) k d' r → Gives limit (.operations l x) k d r
  | readsFirst {k : Nat} {d : Desk τ μ} {r : Outcome × Desk τ μ} :
      Gives limit (.phrase .primary false) k d.advance r → Gives limit (.phrase .primary true) k d r
  | tooDeep {k : Nat} {d : Desk τ μ} : limit ≤ k →
      Gives limit (.phrase .primary false) k d (d.fail .nestedTooDeeply)
  | deeper {k : Nat} {d : Desk τ μ} {r : Outcome × Desk τ μ} : k < limit →
      Gives limit .primary (k + 1) d r → Gives limit (.phrase .primary false) k d r
  | number {ds : String} {x : Float} {k : Nat} {d : Desk τ μ} : d.current = .number ds x →
      Gives limit .primary k d (.ok x, d.advance)
  | name {id : String} {k : Nat} {d : Desk τ μ} : d.current = .name id →
      (d.declare id).advance.current ≠ .equal →
      Gives limit .primary k d (.ok ((d.declare id).advance.valueOf id), (d.declare id).advance)
  | rightSideFails {id : String} {k : Nat} {d d' : Desk τ μ} {e : Report} : d.current = .name id →
      (d.declare id).advance.current = .equal →
      Gives limit (.phrase .expression true) k (d.declare id).advance (.error e, d') →
      Gives limit .primary k d (.error e, d')
  | assignment {id : String} {x : Float} {k : Nat} {d d' : Desk τ μ} : d.current = .name id →
      (d.declare id).advance.current = .equal →
      Gives limit (.phrase .expression true) k (d.declare id).advance (.ok x, d') →
      Gives limit .primary k d (.ok x, d'.assign id x)
  | oppositeFails {k : Nat} {d d' : Desk τ μ} {e : Report} : d.current = .minus →
      Gives limit (.phrase .primary true) k d (.error e, d') → Gives limit .primary k d (.error e, d')
  | opposite {x : Float} {k : Nat} {d d' : Desk τ μ} : d.current = .minus →
      Gives limit (.phrase .primary true) k d (.ok x, d') → Gives limit .primary k d (.ok (-x), d')
  | bracketFails {k : Nat} {d d' : Desk τ μ} {e : Report} : d.current = .bracketOpen →
      Gives limit (.phrase .expression true) k d (.error e, d') →
      Gives limit .primary k d (.error e, d')
  | bracketCutShort {x : Float} {k : Nat} {d d' : Desk τ μ} {e : Report} : d.current = .bracketOpen →
      Gives limit (.phrase .expression true) k d (.ok x, d') → d'.current.report? = some e →
      Gives limit .primary k d (.error e, d')
  | bracketUnclosed {x : Float} {k : Nat} {d d' : Desk τ μ} : d.current = .bracketOpen →
      Gives limit (.phrase .expression true) k d (.ok x, d') → d'.current.report? = none →
      d'.current ≠ .bracketClose → Gives limit .primary k d (d'.fail .bracketExpected)
  | bracket {x : Float} {k : Nat} {d d' : Desk τ μ} : d.current = .bracketOpen →
      Gives limit (.phrase .expression true) k d (.ok x, d') → d'.current = .bracketClose →
      Gives limit .primary k d (.ok x, d'.advance)
  | mistakenToken {k : Nat} {d : Desk τ μ} {e : Report} : d.current.report? = some e →
      Gives limit .primary k d (.error e, d)
  | missing {k : Nat} {d : Desk τ μ} : d.current.report? = none →
      d.current.kind ∉ [.number, .name, .minus, .bracketOpen] →
      Gives limit .primary k d (d.fail .primaryExpected)

/-- The part that reads phrases of the rank, with so many primaries one within another. -/
def Part.ofRank (n : Nat) : Rank → Part τ μ
  | .primary => .primary n
  | .term => .term n
  | .expression => .expression n

theorem Part.ofRank_rank (l : Level) (n : Nat) :
    (ofRank n l.rank : Part τ μ) = chain l (ofRank n l.operand) := by
  cases l <;> rfl

namespace Task

def result (limit : Nat) : Task → (depth : Nat) → Desk τ μ → Outcome × Desk τ μ
  | .phrase r b, k, d => (Part.ofRank (limit - k) r).run (d.opened b)
  | .operations l x, k, d => Part.operations l (.ofRank (limit - k) l.operand) x d
  | .primary, k, d => Part.primaryRun (.primary (limit - k)) d

variable {limit k : Nat} {d d' : Desk τ μ} {r : Outcome × Desk τ μ}

theorem result_primary :
    result limit .primary k d = Part.primaryRun (.primary (limit - k)) d := rfl

theorem result_primary_of_le (h : limit ≤ k) :
    result limit (.phrase .primary false) k d = d.fail .nestedTooDeeply := by
  rw [result, Nat.sub_eq_zero_of_le h]
  rfl

theorem result_primary_of_lt (h : k < limit) :
    result limit (.phrase .primary false) k d = result limit .primary (k + 1) d := by
  obtain ⟨n, rfl⟩ := Nat.exists_eq_add_of_lt h
  rw [result, result, show k + n + 1 - k = n + 1 by omega, show k + n + 1 - (k + 1) = n by omega]
  rfl

theorem result_operations {l : Level} {op : Operator} (h : l.operator? d.current = some op) (x : Float) :
    result limit (.operations l x) k d =
      onward (fun y d' => Part.applied l (.ofRank (limit - k) l.operand) d' (op.apply x y))
        (result limit (.phrase l.operand true) k d) :=
  Part.operations_eq_onward h x

theorem result_phrase (l : Level) (b : Bool) :
    result limit (.phrase l.rank b) k d =
      onward (fun x d' => result limit (.operations l x) k d')
        (result limit (.phrase l.operand b) k d) := by
  rw [result, Part.ofRank_rank, Part.run_chain_eq_onward]
  rfl

theorem result_number {ds : String} {x : Float} (hc : d.current = .number ds x) :
    result limit .primary k d = (.ok x, d.advance) := by
  rw [result_primary]
  unfold Part.primaryRun
  rw [hc]
  rfl

theorem result_assignment {id : String} (hc : d.current = .name id)
    (he : (d.declare id).advance.current = .equal) :
    result limit .primary k d =
      onward (fun x d' => (.ok x, d'.assign id x))
        (result limit (.phrase .expression true) k (d.declare id).advance) := by
  rw [result_primary]
  unfold Part.primaryRun
  rw [hc]
  exact Part.variableOf_eq_onward _ he

theorem result_name {id : String} (hc : d.current = .name id)
    (he : (d.declare id).advance.current ≠ .equal) :
    result limit .primary k d =
      (.ok ((d.declare id).advance.valueOf id), (d.declare id).advance) := by
  rw [result_primary]
  unfold Part.primaryRun
  rw [hc]
  exact if_neg he

theorem result_opposite (hc : d.current = .minus) :
    result limit .primary k d =
      onward (fun x d' => (.ok (-x), d')) (result limit (.phrase .primary true) k d) := by
  rw [result_primary]
  unfold Part.primaryRun
  rw [hc]
  exact Part.opposite_eq_onward _ d

theorem result_bracket (hc : d.current = .bracketOpen) :
    result limit .primary k d = onward closed (result limit (.phrase .expression true) k d) := by
  rw [result_primary]
  unfold Part.primaryRun
  rw [hc]
  exact Part.bracketed_eq_onward _ d

theorem result_missing (h : d.current.kind ∉ [.number, .name, .minus, .bracketOpen]) :
    result limit .primary k d = Part.missing d := by
  rw [result_primary]
  unfold Part.primaryRun
  split <;> rename_i hc <;> first | rfl | simp [hc, Token.kind] at h

theorem Gives.eq_result {t : Task} (h : t.Gives limit k d r) : r = t.result limit k d := by
  induction h with
  | firstOperandFails _ ih => rw [result_phrase, ← ih, onward]
  | chain _ _ ih₁ ih₂ => rw [result_phrase, ← ih₁, onward, ← ih₂]
  | noOperator ho => exact (Part.operations_of_none ho).symm
  | operandFails ho _ ih => rw [result_operations ho, ← ih, onward]
  | operatorFails ho _ ha ih => rw [result_operations ho, ← ih, onward, ha, Part.applied]
  | operator ho _ ha _ ih₁ ih₂ =>
    rw [result_operations ho, ← ih₁, onward, ha]
    exact ih₂
  | readsFirst _ ih => exact ih
  | tooDeep hk => exact (result_primary_of_le hk).symm
  | deeper hk _ ih => rw [result_primary_of_lt hk, ← ih]
  | number hc => exact (result_number hc).symm
  | name hc he => exact (result_name hc he).symm
  | rightSideFails hc he _ ih => rw [result_assignment hc he, ← ih, onward]
  | assignment hc he _ ih => rw [result_assignment hc he, ← ih, onward]
  | oppositeFails hc _ ih => rw [result_opposite hc, ← ih, onward]
  | opposite hc _ ih => rw [result_opposite hc, ← ih, onward]
  | bracketFails hc _ ih => rw [result_bracket hc, ← ih, onward]
  | bracketCutShort hc _ hr ih => rw [result_bracket hc, ← ih, onward, closed, hr]
  | bracketUnclosed hc _ hr hb ih =>
    rw [result_bracket hc, ← ih, onward, closed, hr]
    exact (if_neg hb).symm
  | bracket hc _ hb ih =>
    rw [result_bracket hc, ← ih, onward, closed, hb]
    rfl
  | mistakenToken hr =>
    rw [result_primary, Part.primaryRun_of_isBoundary (Token.isBoundary_of_report? hr), Part.missing, hr]
  | missing hr hk => rw [result_missing hk, Part.missing, hr]

theorem gives_operations {l : Level}
    (hp : ∀ d : Desk τ μ, Gives limit (.phrase l.operand true) k d (result limit (.phrase l.operand true) k d))
    (x : Float) (d : Desk τ μ) :
    Gives limit (.operations l x) k d (result limit (.operations l x) k d) := by
  rw [result]
  fun_induction Part.operations l (.ofRank (limit - k) l.operand) x d with
  | case1 x d ho => exact .noOperator ho
  | case2 x d op ho e d' hr =>
    have hd := hp d
    rw [show result limit (.phrase l.operand true) k d = (.error e, d') from hr] at hd
    exact .operandFails ho hd
  | case3 x d op ho y d' hr c hc =>
    have hd := hp d
    rw [show result limit (.phrase l.operand true) k d = (.ok y, d') from hr] at hd
    exact .operatorFails ho hd hc
  | case4 x d op ho y d' hr z hz ih =>
    have hd := hp d
    rw [show result limit (.phrase l.operand true) k d = (.ok y, d') from hr] at hd
    exact .operator ho hd hz ih

theorem gives_chain {l : Level}
    (hp : ∀ b (d : Desk τ μ), Gives limit (.phrase l.operand b) k d (result limit (.phrase l.operand b) k d))
    (b : Bool) (d : Desk τ μ) :
    Gives limit (.phrase l.rank b) k d (result limit (.phrase l.rank b) k d) := by
  have hd := hp b d
  rw [result_phrase]
  generalize result limit (.phrase l.operand b) k d = r at hd ⊢
  obtain ⟨e | x, d'⟩ := r
  · exact .firstOperandFails hd
  · exact .chain hd (gives_operations (hp true) x d')

theorem gives_ranks
    (hp : ∀ b (d : Desk τ μ), Gives limit (.phrase .primary b) k d (result limit (.phrase .primary b) k d))
    (q : Rank) (b : Bool) (d : Desk τ μ) :
    Gives limit (.phrase q b) k d (result limit (.phrase q b) k d) := by
  have ht := @gives_chain _ _ _ _ limit k .product hp
  cases q with
  | primary => exact hp b d
  | term => exact ht b d
  | expression => exact @gives_chain _ _ _ _ limit k .sum ht b d

theorem gives_primary
    (hp : ∀ b (d : Desk τ μ), Gives limit (.phrase .primary b) k d (result limit (.phrase .primary b) k d))
    (d : Desk τ μ) : Gives limit .primary k d (result limit .primary k d) := by
  have hs := gives_ranks hp .expression true
  by_cases hk : d.current.kind ∈ [.number, .name, .minus, .bracketOpen]
  · cases hc : d.current with
    | number ds x =>
      rw [result_number hc]
      exact .number hc
    | name id =>
      by_cases he : (d.declare id).advance.current = .equal
      · have hd := hs (d.declare id).advance
        rw [result_assignment hc he]
        generalize result limit (.phrase .expression true) k (d.declare id).advance = r at hd ⊢
        obtain ⟨e | x, d'⟩ := r
        · exact .rightSideFails hc he hd
        · exact .assignment hc he hd
      · rw [result_name hc he]
        exact .name hc he
    | minus =>
      have hd := hp true d
      rw [result_opposite hc]
      generalize result limit (.phrase .primary true) k d = r at hd ⊢
      obtain ⟨e | x, d'⟩ := r
      · exact .oppositeFails hc hd
      · exact .opposite hc hd
    | bracketOpen =>
      have hd := hs d
      rw [result_bracket hc]
      generalize result limit (.phrase .expression true) k d = r at hd ⊢
      obtain ⟨e | x, d'⟩ := r
      · exact .bracketFails hc hd
      · rw [onward, closed]
        cases hr : d'.current.report? with
        | some e => exact .bracketCutShort hc hd hr
        | none =>
          simp only
          split
          · rename_i hb
            exact .bracket hc hd hb
          · rename_i hb
            exact .bracketUnclosed hc hd hr hb
    | _ => simp [hc, Token.kind] at hk
  · rw [result_missing hk, Part.missing]
    cases hr : d.current.report? with
    | some e => exact .mistakenToken hr
    | none => exact .missing hr hk

theorem gives_primary_of_left (n : Nat) (hn : limit - k = n) (b : Bool) (d : Desk τ μ) :
    Gives limit (.phrase .primary b) k d (result limit (.phrase .primary b) k d) := by
  induction n generalizing k b d with
  | zero =>
    have hk : limit ≤ k := by omega
    have hd := fun d : Desk τ μ => (result_primary_of_le hk : result limit _ k d = _) ▸ Gives.tooDeep (d := d) hk
    cases b with
    | false => exact hd d
    | true => exact .readsFirst (hd d.advance)
  | succ n ih =>
    have hk : k < limit := by omega
    have hp := gives_primary (ih (k := k + 1) (by omega))
    have hd := fun d : Desk τ μ => (result_primary_of_lt hk : result limit _ k d = _) ▸ Gives.deeper hk (hp d)
    cases b with
    | false => exact hd d
    | true => exact .readsFirst (hd d.advance)

/-- A call for a phrase gives what the part of its rank comes to, and nothing else. -/
theorem gives_phrase_iff {q : Rank} {b : Bool} :
    Gives limit (.phrase q b) k d r ↔ r = (Part.ofRank (limit - k) q).run (d.opened b) := by
  constructor
  · exact Gives.eq_result
  · rintro rfl
    exact gives_ranks (gives_primary_of_left (limit - k) rfl) q b d

end Task

end DeskCalculator
