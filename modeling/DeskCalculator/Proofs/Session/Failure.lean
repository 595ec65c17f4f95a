import DeskCalculator.Proofs.Evaluation.Assignment
import DeskCalculator.Proofs.Session.Frame
import DeskCalculator.Proofs.Session.Ledger

set_option autoImplicit false

namespace DeskCalculator

namespace Posting

variable {p : Posting} {r : Report}

/-- The report that a statement failed with is all that was reported, or there is one more, which the token that
ends the statement carries. -/
theorem Balanced.reports_of_error (h : p.Balanced) (ho : p.outcome = .error r) :
    (r.kind = .lexical ∨ p.segment.report? = none → p.reports = [r]) ∧
      (r.kind ≠ .lexical → ∀ e, p.segment.report? = some e → p.reports.Perm [e, r]) := by
  have hp := h.perm
  rw [ho] at hp
  constructor
  · intro hk
    by_cases hl : r.kind = .lexical
    · rw [h.carried r ho hl, Outcome.ownReport?_error_of_lexical hl] at hp
      exact List.perm_singleton.1 hp
    · rw [hk.resolve_left hl, Outcome.ownReport?_error hl] at hp
      exact List.perm_singleton.1 hp
  · intro hk e he
    rw [he, Outcome.ownReport?_error hk] at hp
    exact hp

end Posting

namespace Session

/-- A text with a single statement, which failed: at most one token of the text is mistaken. The report that the
statement failed with is the only one, unless it is no token's own and a token of the text carries another. -/
theorem reports_of_failure (s : Session) (text : List Char) {r : Report}
    (h : (s.evaluate text).1 = [.error r]) :
    ((tokenize text).filterMap Token.report?).length ≤ 1 ∧
      (r.kind = .lexical ∨ (tokenize text).filterMap Token.report? = [] →
        (s.evaluate text).2.reports = s.reports ++ [r] ∧
          (s.evaluate text).2.errorCount = s.errorCount + 1) ∧
      (r.kind ≠ .lexical → ∀ e, e ∈ (tokenize text).filterMap Token.report? →
        (∃ new, (s.evaluate text).2.reports = s.reports ++ new ∧ new.Perm [e, r]) ∧
          (s.evaluate text).2.errorCount = s.errorCount + 2) := by
  obtain ⟨ps, hp⟩ := s.exists_posted_evaluate text
  obtain ⟨p, rfl, ho⟩ : ∃ p, ps = [p] ∧ p.outcome = .error r := by
    simpa [h, List.map_eq_singleton_iff] using hp.outcomes
  have ht : (tokenize text).filterMap Token.report? = p.segment.report?.toList := by
    rw [← flatMap_tokens_segments (tokenize text), hp.filterMap_tokens]
    cases he : p.segment.report? <;> simp [he]
  have hr : (s.evaluate text).2.reports = s.reports ++ p.reports := by simpa using hp.reports
  have hc : (s.evaluate text).2.errorCount = s.errorCount + p.reports.length := by
    simpa using hp.errorCount_eq_add_length
  obtain ⟨halone, hmore⟩ := (hp.balanced p List.mem_cons_self).reports_of_error ho
  rw [ht, hr, hc]
  refine ⟨?_, ?_, ?_⟩
  · cases p.segment.report? <;> simp
  · intro hk
    have hn : p.reports = [r] := halone (by simpa using hk)
    simp [hn]
  · intro hk e he
    have hn : p.reports.Perm [e, r] := hmore hk e (by simpa using he)
    exact ⟨⟨p.reports, rfl, hn⟩, by rw [hn.length_eq]; rfl⟩

/-- The character behind a quotient is read before the quotient fails, and both are reported. -/
theorem reports_quotient_question :
    (Session.evaluate {} "1/0?".toList).1 = [.error Cause.divideByZero.report] ∧
      (Session.evaluate {} "1/0?".toList).2.errorCount = errorCount {} + 2 := by
  have h : (Session.evaluate {} "1/0?".toList).1 = [.error Cause.divideByZero.report] := by
    set_option maxRecDepth 10000 in decide +kernel
  have he : (Cause.badToken '?').report ∈ (tokenize "1/0?".toList).filterMap Token.report? := by
    set_option maxRecDepth 10000 in decide +kernel
  exact ⟨h, ((reports_of_failure {} "1/0?".toList h).2.2 (by decide) _ he).2⟩

/-- Behind a bracket that is closed without having been opened a mistaken character is reported as well. -/
theorem reports_bracket_question :
    (Session.evaluate {} ") ?".toList).1 = [.error Cause.primaryExpected.report] ∧
      (Session.evaluate {} ") ?".toList).2.reports =
        [Cause.primaryExpected.report, (Cause.badToken '?').report] ∧
      (Session.evaluate {} ") ?".toList).2.errorCount ≠ errorCount {} + 1 := by
  set_option maxRecDepth 10000 in decide +kernel

variable {s s' : Session} {g : Segment} {o : Outcome} {r : Report} {name : String} {post : List Token}

/-- Where evaluating the right side of an assignment at the start of a statement stops, and what has been done to
the variables from its start on. -/
def rightSide (s : Session) (name : String) (post : List Token) : Desk (List Token) Traced :=
  ((Part.expression (s.levels - 1)).run ⟨post, .after (s.store.symbols.declare name) []⟩).2

theorem follows_rightSide (s : Session) (name : String) (post : List Token) :
    (s.rightSide name post).Follows post (s.store.symbols.declare name) :=
  (Desk.invariant_follows post (s.store.symbols.declare name)).preserves_expression (s.levels - 1) _
    (Desk.follows_start post (s.store.symbols.declare name))

/-- A variable whose assignment failed over its right side, at the start of a statement, has the value of the last
assignment to it that the right side completed. If the right side completed none, the variable has the value
that it had. -/
structure FailedAssignment (s : Session) (name : String) (post : List Token) (s' : Session) : Prop where
  kept : (∀ x, .store name x ∉ (s.rightSide name post).memory.effects) →
    s'.store.symbols.valueOf name = s.store.symbols.valueOf name
  completed : ∀ x before later,
    (s.rightSide name post).memory.effects = before ++ .store name x :: later →
    (∀ y, .store name y ∉ later) →
    Completed post (s.store.symbols.declare name) before name x ∧
      s'.store.symbols.valueOf name = x
  unassigned : (∀ pre rest, post ≠ pre ++ .name name :: .equal :: rest) →
    s'.store.symbols.valueOf name = s.store.symbols.valueOf name

theorem valueOf_of_run_assignment (hr : ((Part.expression s.levels).run
      ⟨.name name :: .equal :: post, s.store⟩).1 = .error r) :
    ((Part.expression s.levels).run ⟨.name name :: .equal :: post, s.store⟩).2.memory.symbols.valueOf name =
      (s.rightSide name post).memory.symbols.valueOf name := by
  unfold rightSide
  cases hl : s.levels with
  | zero => exact (SymbolTable.valueOf_declare s.store.symbols name name).symm
  | succ n =>
    have hd : Traces ⟨post, .after (s.store.symbols.declare name) []⟩
        (Desk.advance (Desk.advance (Desk.declare ⟨.name name :: .equal :: post, s.store⟩ name))) :=
      ⟨rfl, by rw [Desk.symbols_advance, Desk.symbols_advance]; rfl⟩
    obtain ⟨o, d, e, hd', he, -, hs⟩ := (simulation_traces.simulates_expression n _ _ hd).eq_mk
    rw [hl, Part.run_expression_assignment rfl rfl, he] at hr
    rw [Part.run_expression_assignment rfl rfl, he, Nat.add_sub_cancel, hd']
    cases o with
    | ok x => cases hr
    | error e => exact congrArg (SymbolTable.valueOf · name) hs.symm

theorem failedAssignment_of_evaluateTokens (hg : g.tokens = .name name :: .equal :: post)
    (h : s.evaluateTokens g.tokens = ([o], s'))
    (hr : ((Part.expression s.levels).run ⟨g.tokens, s.store⟩).1 = .error r) :
    o = .error r ∧ s.FailedAssignment name post s' := by
  have hb : g.body ≠ [] := by
    intro hb
    have he := g.isBoundary_ending
    rw [Segment.tokens, hb, List.nil_append] at hg
    rw [hg] at he
    contradiction
  have hm := Desk.symbols_statement s.levels ⟨g.tokens, s.store⟩
  obtain ⟨m', hst, rfl⟩ := exists_statement_of_evaluateTokens hb h
  have ho : o = .error r := by
    cases hrun : (Part.expression s.levels).run ⟨g.tokens, s.store⟩ with
    | mk o₁ d₁ =>
      rw [hrun] at hr
      subst hr
      rw [Desk.statement_of_error hrun] at hst
      exact (Prod.mk.inj hst).1.symm
  rw [hst, hg] at hm
  rw [hg] at hr
  have hf := s.follows_rightSide name post
  have hv : m'.symbols.valueOf name =
      (lastStored? (s.rightSide name post).memory.effects name).getD
        (s.store.symbols.valueOf name) := by
    rw [hm, valueOf_of_run_assignment hr, hf.valueOf_eq, SymbolTable.valueOf_declare]
  have hk : (∀ x, .store name x ∉ (s.rightSide name post).memory.effects) →
      m'.symbols.valueOf name = s.store.symbols.valueOf name := by
    intro hn
    rw [hv, lastStored?_eq_none_iff.2 hn]
    rfl
  refine ⟨ho, hk, ?_, ?_⟩
  · intro x before later he hlater
    refine ⟨hf.stores before later name x he, ?_⟩
    rw [hv, he, lastStored?_append_store hlater]
    rfl
  · intro hn
    refine hk fun x hx => ?_
    obtain ⟨before, later, he⟩ := List.append_of_mem hx
    obtain ⟨pre, rest, -, -, -, hp, -⟩ := hf.stores before later name x he
    exact hn pre rest hp

/-- In whatever text and session: where a statement begins with an assignment and its evaluation fails, the
variable is as it was unless the right side has completed an assignment to it. -/
theorem failedAssignments_evaluate (s : Session) (text : List Char) :
    Through (fun s g o s' => ∀ name post r, g.tokens = .name name :: .equal :: post →
        ((Part.expression s.levels).run ⟨g.tokens, s.store⟩).1 = .error r →
        o = .error r ∧ s.FailedAssignment name post s') s
      (segments (tokenize text)) (s.evaluate text).1 (s.evaluate text).2 :=
  through_evaluate (fun _ h _ _ _ hg hr => failedAssignment_of_evaluateTokens hg h hr) s text

/-- A value is kept that was assigned before the failure: behind the assignment a token is left, or the right side
has completed another assignment to the same variable. -/
theorem evaluate_assignment_kept :
    (tokenize "x = 1 2".toList).take 2 = [.name "x", .equal] ∧
      (Session.evaluate {} "x = 1 2".toList).1 = [.error (Cause.unexpected .number).report] ∧
      (Session.evaluate {} "x = 1 2".toList).2.store.symbols.valueOf "x" = 1 ∧
      (tokenize "x = (x = 1) / 0".toList).take 2 = [.name "x", .equal] ∧
      (Session.evaluate {} "x = (x = 1) / 0".toList).1 = [.error Cause.divideByZero.report] ∧
      (Session.evaluate {} "x = (x = 1) / 0".toList).2.store.symbols.valueOf "x" = 1 ∧
      (Store.symbols {}).valueOf "x" = 0 := by
  set_option maxRecDepth 10000 in decide +kernel

end Session

end DeskCalculator
