import DeskCalculator.Proofs.Evaluation.Assignment
import DeskCalculator.Proofs.Evaluation.Calls
import DeskCalculator.Proofs.Grammar.Derivation
import DeskCalculator.Proofs.Source.Sequence
import Mathlib.Logic.Function.Iterate

/-!
What is passed when a phrase is called for. Main statement: whatever the current token is, a call moves past tokens
none of which ends a statement, and leaves the first that it cannot use as the current one. If it comes out, the
tokens that it has passed are a phrase of the rank and the next cannot extend them.
-/
set_option autoImplicit false

namespace DeskCalculator

namespace TokenSource

variable {τ : Type} [TokenSource τ]

inductive Passes : τ → List Token → τ → Prop
  | refl (s : τ) : Passes s [] s
  | step {s t : τ} {ts : List Token} : (current s).isBoundary = false → Passes (advance s) ts t →
      Passes s (current s :: ts) t

namespace Passes

variable {s t u : τ} {ts us : List Token}

theorem trans (h : Passes s ts t) (h' : Passes t us u) : Passes s (ts ++ us) u := by
  induction h with
  | refl => exact h'
  | step hb _ ih => exact .step hb (ih h')

theorem cons {c : Token} (hc : current s = c) (hb : c.isBoundary = false)
    (h : Passes (advance s) ts t) : Passes s (c :: ts) t := by
  subst hc
  exact .step hb h

theorem single {c : Token} (hc : current s = c) (hb : c.isBoundary = false) :
    Passes s [c] (advance s) :=
  cons hc hb (.refl _)

theorem isBoundary_eq_false (h : Passes s ts t) : ∀ u ∈ ts, u.isBoundary = false := by
  induction h with
  | refl => simp
  | step hb _ ih => exact List.forall_mem_cons.2 ⟨hb, ih⟩

theorem eq_iterate (h : Passes s ts t) : t = advance^[ts.length] s := by
  induction h with
  | refl => rfl
  | step _ _ ih => exact ih

end Passes

end TokenSource

/-- The tokens that are passed are the first of those that are delivered, and what is delivered then are the others. -/
theorem TokenSource.Passes.exists_delivers {s t : TokenStream} {ts us : List Token} (h : Passes s ts t)
    (hs : s.Delivers us) : ∃ left, us = ts ++ left ∧ t.Delivers left := by
  induction h generalizing us with
  | refl => exact ⟨us, rfl, hs⟩
  | @step s t ts hb _ ih =>
    obtain ⟨left, hl, ht⟩ := ih hs.advance
    refine ⟨left, ?_, ht⟩
    cases us with
    | nil =>
      rw [show current s = .finish from hs.1] at hb
      contradiction
    | cons u us => rw [show current s = u from hs.1, List.cons_append, ← hl, List.tail_cons]

/-- A phrase of the rank that has been read is not extended by the next token. -/
def Rank.EndsBefore : Rank → (read : List TokenKind) → (next : Token) → Prop
  | .primary, read, next => read = [.name] → next.kind ≠ .equal
  | .term, _, next => next.kind ∉ [.star, .slash]
  | .expression, _, next => next.kind ∉ [.plus, .minus, .star, .slash]

theorem Level.operator?_product_eq_none {t : Token} (h : Level.product.operator? t = none) :
    t.kind ∉ [.star, .slash] := by
  cases t <;> simp [operator?, Token.kind] at h ⊢

theorem Level.operator?_sum_eq_none {t : Token} (h : Level.sum.operator? t = none) :
    t.kind ∉ [.plus, .minus] := by
  cases t <;> simp [operator?, Token.kind] at h ⊢

theorem Derives.single {l : Level} {ks : List TokenKind} (h : Derives l.operand ks) :
    Derives l.rank ks := by
  cases l with
  | sum => exact .summand h
  | product => exact .factor h

theorem Derives.join {l : Level} {t : Token} {op : Operator} {ks ls : List TokenKind}
    (ho : l.operator? t = some op) (h : Derives l.rank ks) (h' : Derives l.operand ls) :
    Derives l.rank (ks ++ t.kind :: ls) := by
  cases l with
  | sum => exact .sum (by cases t <;> simp [Level.operator?, Token.kind] at ho ⊢) h h'
  | product => exact .product (by cases t <;> simp [Level.operator?, Token.kind] at ho ⊢) h h'

namespace Task

variable {τ μ : Type} [TokenSource τ] [Memory μ]

def start : Task → Desk τ μ → Desk τ μ
  | .phrase _ b, d => d.opened b
  | .operations _ _, d | .primary, d => d

/-- What has been read when a task comes out before the next token. Operations extend whatever they follow. -/
def Reads : Task → (read : List TokenKind) → (next : Token) → Prop
  | .phrase r _, ks, t => Derives r ks ∧ (r = .primary → Rank.primary.EndsBefore ks t)
  | .operations l _, ks, _ => ∀ js, Derives l.rank js → Derives l.rank (js ++ ks)
  | .primary, ks, t => Derives .primary ks ∧ Rank.primary.EndsBefore ks t

def Passes (t : Task) (d : Desk τ μ) (r : Outcome × Desk τ μ) : Prop :=
  ∃ ts, TokenSource.Passes (t.start d).source ts r.2.source ∧
    ∀ x, r.1 = .ok x → t.Reads (ts.map Token.kind) r.2.current

variable {limit k : Nat} {d d' : Desk τ μ} {r : Outcome × Desk τ μ} {t : Task}

theorem passes_of_error {e : Report} {ts : List Token}
    (h : TokenSource.Passes (t.start d).source ts d'.source) : t.Passes d (.error e, d') :=
  ⟨ts, h, fun _ hx => by cases hx⟩

theorem passes_fail (d : Desk τ μ) (c : Cause) : Passes .primary d (d.fail c) :=
  passes_of_error (.refl _)

theorem Gives.passes (h : t.Gives limit k d r) : t.Passes d r := by
  induction h with
  | firstOperandFails _ ih =>
    obtain ⟨ts, hp, -⟩ := ih
    exact passes_of_error hp
  | @chain l b k d d' x r _ _ ih₁ ih₂ =>
    obtain ⟨ts, hp, hr⟩ := ih₁
    obtain ⟨us, hp', hr'⟩ := ih₂
    refine ⟨ts ++ us, hp.trans hp', fun x hx => ⟨?_, ?_⟩⟩
    · rw [List.map_append]
      exact hr' x hx _ (hr _ rfl).1.single
    · -- No level of operators makes a primary.
      cases l <;> intro hl <;> cases hl
  | noOperator ho =>
    refine ⟨[], .refl _, fun x _ js hj => ?_⟩
    rwa [List.map_nil, List.append_nil]
  | operandFails ho _ ih =>
    obtain ⟨ts, hp, -⟩ := ih
    exact passes_of_error (.step (Level.isBoundary_of_operator? ho) hp)
  | operatorFails ho _ _ ih =>
    obtain ⟨ts, hp, -⟩ := ih
    exact passes_of_error (.step (Level.isBoundary_of_operator? ho) hp)
  | @operator l op x y z k d d' r ho _ _ _ ih₁ ih₂ =>
    obtain ⟨ts, hp, hr⟩ := ih₁
    obtain ⟨us, hp', hr'⟩ := ih₂
    refine ⟨d.current :: ts ++ us, (hp.step (Level.isBoundary_of_operator? ho)).trans hp', ?_⟩
    intro x hx js hj
    have hj' := hr' x hx _ (hj.join ho (hr _ rfl).1)
    simpa using hj'
  | readsFirst _ ih => exact ih
  | tooDeep _ => exact passes_of_error (.refl _)
  | deeper _ _ ih =>
    obtain ⟨ts, hp, hr⟩ := ih
    exact ⟨ts, hp, fun x hx => ⟨(hr x hx).1, fun _ => (hr x hx).2⟩⟩
  | number hc =>
    exact ⟨_, .single hc rfl, fun _ _ => ⟨.number, by simp [Rank.EndsBefore, Token.kind]⟩⟩
  | @name id k d hc he =>
    refine ⟨_, .single hc rfl, fun _ _ => ⟨.name, fun _ => ?_⟩⟩
    intro hk
    exact he (Token.eq_of_kind_eq hk rfl (by decide) (by decide))
  | rightSideFails hc he _ ih =>
    obtain ⟨ts, hp, -⟩ := ih
    exact passes_of_error (.cons hc rfl (.cons he rfl hp))
  | assignment hc he _ ih =>
    obtain ⟨ts, hp, hr⟩ := ih
    refine ⟨_, .cons hc rfl (.cons he rfl hp), fun _ _ => ⟨.assign (hr _ rfl).1, ?_⟩⟩
    simp [Rank.EndsBefore, Token.kind]
  | oppositeFails hc _ ih =>
    obtain ⟨ts, hp, -⟩ := ih
    exact passes_of_error (.cons hc rfl hp)
  | opposite hc _ ih =>
    obtain ⟨ts, hp, hr⟩ := ih
    refine ⟨_, .cons hc rfl hp, fun _ _ => ⟨.minus (hr _ rfl).1, ?_⟩⟩
    simp [Rank.EndsBefore, Token.kind]
  | bracketFails hc _ ih =>
    obtain ⟨ts, hp, -⟩ := ih
    exact passes_of_error (.cons hc rfl hp)
  | bracketCutShort hc _ _ ih =>
    obtain ⟨ts, hp, -⟩ := ih
    exact passes_of_error (.cons hc rfl hp)
  | bracketUnclosed hc _ _ _ ih =>
    obtain ⟨ts, hp, -⟩ := ih
    exact passes_of_error (.cons hc rfl hp)
  | bracket hc _ hb ih =>
    obtain ⟨ts, hp, hr⟩ := ih
    refine ⟨_, .cons hc rfl (hp.trans (.single hb rfl)), fun _ _ => ⟨?_, ?_⟩⟩
    · rw [List.map_cons, List.map_append]
      exact .bracket (hr _ rfl).1
    · simp [Rank.EndsBefore, Token.kind]
  | mistakenToken _ => exact passes_of_error (.refl _)
  | missing _ _ => exact passes_fail _ _

/-- A phrase that has come out cannot go on with the token that is the current one then. -/
theorem Gives.endsBefore {q : Rank} {b : Bool} {x : Float} (h : Gives limit (.phrase q b) k d (.ok x, d'))
    {ts : List Token} (hr : Reads (.phrase q b) (ts.map Token.kind) d'.current) :
    q.EndsBefore (ts.map Token.kind) d'.current := by
  have he := h.eq_result.symm
  cases q with
  | primary => exact hr.2 rfl
  | term =>
    exact Level.operator?_product_eq_none (Part.stops_chain (Q := fun _ => True) (fun _ _ _ _ => trivial) he).2
  | expression =>
    have hs := Level.operator?_sum_eq_none (Part.operator?_of_run_expression he .sum)
    have hp := Level.operator?_product_eq_none (Part.operator?_of_run_expression he .product)
    simp only [List.mem_cons, List.not_mem_nil, or_false, not_or] at hs hp
    simp [Rank.EndsBefore, hs, hp]

/-- A call from the outermost level: reading a token first is moving on to it and calling then. A call comes out or
fails behind the tokens that it has passed, and stands before the others. -/
theorem exists_passed (limit : Nat) (q : Rank) (d : Desk TokenStream Store) :
    (∀ r, Gives limit (.phrase q true) 0 d r ↔ Gives limit (.phrase q false) 0 d.advance r) ∧
    ∃ (o : Outcome) (d' : Desk TokenStream Store) (passed left : List Token),
      (Part.ofRank limit q).run d = (o, d') ∧ (∀ r, Gives limit (.phrase q false) 0 d r ↔ r = (o, d')) ∧
      d.current :: Lexer.tokens d.source.reader = passed ++ left ∧ d'.source.Delivers left ∧
      d'.source = TokenSource.advance^[passed.length] d.source ∧
      (∀ t ∈ passed, t.isBoundary = false) ∧
      ∀ x, o = .ok x →
        Derives q (passed.map Token.kind) ∧ q.EndsBefore (passed.map Token.kind) d'.current := by
  refine ⟨fun r => by rw [gives_phrase_iff, gives_phrase_iff]; rfl, ?_⟩
  have hg : ∀ r, Gives limit (.phrase q false) 0 d r ↔ r = (Part.ofRank limit q).run d :=
    fun r => gives_phrase_iff
  cases hr : (Part.ofRank limit q).run d with
  | mk o d' =>
    have h : Gives limit (.phrase q false) 0 d (o, d') := (hg _).2 hr.symm
    obtain ⟨passed, hp, hread⟩ := h.passes
    have hs : d.source.Delivers (d.current :: Lexer.tokens d.source.reader) := ⟨rfl, rfl⟩
    obtain ⟨left, hl, hd⟩ := hp.exists_delivers hs
    refine ⟨o, d', passed, left, rfl, fun r => by rw [hg, hr], hl, hd, hp.eq_iterate,
      hp.isBoundary_eq_false, ?_⟩
    rintro x rfl
    exact ⟨(hread x rfl).1, h.endsBefore (hread x rfl)⟩

end Task

end DeskCalculator
