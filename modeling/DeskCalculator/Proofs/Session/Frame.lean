import DeskCalculator.Proofs.Evaluation.Trace
import DeskCalculator.Proofs.Session.Segment

set_option autoImplicit false

namespace DeskCalculator

section
variable {τ : Type} [TokenSource τ]

namespace Desk

theorem symbols_advance (d : Desk τ Store) : d.advance.memory.symbols = d.memory.symbols :=
  symbols_note _ _

theorem symbols_skipStatement (d : Desk τ Store) :
    d.skipStatement.memory.symbols = d.memory.symbols := by
  fun_induction skipStatement d with
  | case1 => rfl
  | case2 d h ih => rw [ih, symbols_advance]

theorem symbols_closeStatement (x : Float) (d : Desk τ Store) :
    (closeStatement x d).2.memory.symbols = d.memory.symbols := by
  unfold closeStatement
  split
  · rfl
  · split <;> rfl

/-- Nothing is done to the variables once the evaluation of a statement has come out or failed. -/
theorem symbols_statement (levels : Nat) (d : Desk τ Store) :
    (statement levels d).2.memory.symbols =
      ((Part.expression levels).run d).2.memory.symbols := by
  cases hr : (Part.expression levels).run d with
  | mk o d' =>
    cases o with
    | error e =>
      rw [statement_of_error hr]
      exact symbols_skipStatement d'
    | ok x =>
      have hc := symbols_closeStatement x d'
      rw [statement_of_ok hr]
      split <;> rename_i hs <;> rw [hs] at hc
      · exact hc
      · exact (symbols_skipStatement _).trans hc

end Desk

end

namespace Session

def evaluation (s : Session) (g : Segment) : Desk (List Token) Traced :=
  ((Part.expression s.levels).run ⟨g.tokens, .after s.store.symbols []⟩).2

def effects (s : Session) (g : Segment) : List Effect := (s.evaluation g).memory.effects

example : (segments (tokenize "a = (b = 2) + c".toList)).map (effects {}) =
    [[.lookup "a", .lookup "b", .store "b" 2, .lookup "c", .store "a" 2]] := by
  set_option maxRecDepth 10000 in decide +kernel

/-- What a statement has done to the variables of a session. Some of its tokens were read, and the others were
skipped. -/
structure Frame (s : Session) (g : Segment) (o : Outcome) (s' : Session) (read skipped : List Token) :
    Prop where
  evaluated : s.evaluateTokens g.tokens = ([o], s')
  body : g.body = read ++ skipped
  source : (s.evaluation g).source = skipped ++ g.ending.toList
  skipped_of_ok : ∀ x, o = .ok x → skipped = []
  lookups : lookedUp (s.effects g) = Token.names read
  names : s'.store.symbols.names = s.store.symbols.names ++
    ((Token.names read).filter fun name => name ∉ s.store.symbols.names).eraseDups
  valueOf : ∀ name, s'.store.symbols.valueOf name =
    (lastStored? (s.effects g) name).getD (s.store.symbols.valueOf name)
  stores : EachStore (Completed g.tokens s.store.symbols) (s.effects g)
  changed : ∀ name, s'.store.symbols.valueOf name ≠ s.store.symbols.valueOf name →
    ∃ x before later, s.effects g = before ++ .store name x :: later ∧ (∀ y, .store name y ∉ later) ∧
      Completed g.tokens s.store.symbols before name x ∧ s'.store.symbols.valueOf name = x
  unread : ∀ name, name ∉ Token.names read →
    (name ∈ s'.store.symbols.names ↔ name ∈ s.store.symbols.names) ∧
      s'.store.symbols.valueOf name = s.store.symbols.valueOf name

variable {s s' : Session} {g : Segment} {o : Outcome}

theorem follows_evaluation (s : Session) (g : Segment) :
    (s.evaluation g).Follows g.tokens s.store.symbols :=
  (Desk.invariant_follows g.tokens s.store.symbols).preserves_expression s.levels _
    (Desk.follows_start g.tokens s.store.symbols)

theorem exists_read (s : Session) (g : Segment) :
    ∃ read skipped, g.body = read ++ skipped ∧
      (s.evaluation g).source = skipped ++ g.ending.toList ∧
      lookedUp (s.effects g) = Token.names read := by
  obtain ⟨skipped, hs, read, hb⟩ := ((Part.expression s.levels).reaches
    ⟨g.tokens, Traced.after s.store.symbols []⟩).eq_append g.isBoundary_ending
  obtain ⟨read', hr, hl⟩ := (s.follows_evaluation g).lookups
  have hd : (s.evaluation g).source = skipped ++ g.ending.toList := hs
  obtain rfl : read = read' := by
    rw [hd, Segment.tokens, ← hb, List.append_assoc] at hr
    exact List.append_cancel_right hr
  exact ⟨read, skipped, hb.symm, hd, hl⟩

theorem traces_evaluation (s : Session) (g : Segment) :
    Agree Traces ((Part.expression s.levels).run ⟨g.tokens, .after s.store.symbols []⟩)
      ((Part.expression s.levels).run ⟨g.tokens, s.store⟩) :=
  simulation_traces.simulates_expression s.levels _ _ ⟨rfl, rfl⟩

theorem exists_statement_of_evaluateTokens (hb : g.body ≠ [])
    (h : s.evaluateTokens g.tokens = ([o], s')) :
    ∃ m', Desk.statement s.levels ⟨g.tokens, s.store⟩ = (o, ⟨g.ending.toList, m'⟩) ∧
      s' = { s with store := m' } := by
  have ha : g.isAnswered = true := by simp [Segment.isAnswered, hb]
  obtain ⟨m', hn, hs⟩ := g.exists_nextOutcome?_of_evaluateTokens ha h
  obtain ⟨t, ts, ht⟩ := List.exists_cons_of_ne_nil hb
  have hi : t.isBoundary = false := g.body_inner t (ht ▸ List.mem_cons_self)
  have hd : Desk.advance ⟨.finish :: g.tokens, s.store⟩ = ⟨g.tokens, s.store⟩ := by
    simp [Segment.tokens, ht, Memory.note_of_report?_none (Token.report?_of_not_boundary hi)]
  rw [Desk.nextOutcome?_of_inner (by rw [hd, Segment.tokens, ht]; exact hi), hd] at hn
  simp only [Prod.mk.injEq, Option.some.injEq] at hn
  exact ⟨m', Prod.ext hn.1 hn.2, hs⟩

theorem symbols_of_evaluateTokens (ha : g.isAnswered = true)
    (h : s.evaluateTokens g.tokens = ([o], s')) :
    s'.store.symbols = (s.evaluation g).memory.symbols := by
  by_cases hb : g.body = []
  · obtain ⟨m', hn, rfl⟩ := g.exists_nextOutcome?_of_evaluateTokens ha h
    obtain ⟨read, skipped, hr, -, hl⟩ := s.exists_read g
    obtain ⟨rfl, rfl⟩ := List.append_eq_nil_iff.1 (hr.symm.trans hb)
    have he : (s.evaluation g).memory.effects = [] := (s.follows_evaluation g).grounded.eq_nil hl
    rw [(s.follows_evaluation g).memory, he]
    obtain ⟨r, hr⟩ : ∃ r, (Desk.advance ⟨.finish :: g.tokens, s.store⟩).current.report? = some r := by
      have hbad : g.endsBadly = true := by simpa [Segment.isAnswered, hb] using ha
      cases he : g.ending with
      | none => simp [Segment.endsBadly, he] at hbad
      | some e =>
        rw [Segment.endsBadly, he, Option.any_some, Option.isSome_iff_exists] at hbad
        simpa [Segment.tokens, hb, he] using hbad
    rw [Desk.nextOutcome?_of_report hr] at hn
    have hm := Desk.symbols_advance ⟨.finish :: g.tokens, s.store⟩
    rw [(Prod.mk.inj hn).2] at hm
    exact hm
  · obtain ⟨m', hs, rfl⟩ := exists_statement_of_evaluateTokens hb h
    have hm := Desk.symbols_statement s.levels ⟨g.tokens, s.store⟩
    rw [hs] at hm
    exact hm.trans (s.traces_evaluation g).2.2.symm

/-- A statement that has come out has been read to its end. -/
theorem skipped_eq_nil {x : Float} {read skipped : List Token}
    (h : s.evaluateTokens g.tokens = ([.ok x], s')) (hb : g.body = read ++ skipped)
    (hs : (s.evaluation g).source = skipped ++ g.ending.toList) : skipped = [] := by
  by_cases hn : g.body = []
  · exact (List.append_eq_nil_iff.1 (hb.symm.trans hn)).2
  · obtain ⟨m', hst, -⟩ := exists_statement_of_evaluateTokens hn h
    have hr := (Desk.run_of_statement_eq_ok hst).1
    have ht : (s.evaluation g).source = g.ending.toList := by
      rw [evaluation, (s.traces_evaluation g).2.1, hr]
    simpa using hs.symm.trans ht

theorem frame_of_evaluateTokens (ha : g.isAnswered = true)
    (h : s.evaluateTokens g.tokens = ([o], s')) : ∃ read skipped, s.Frame g o s' read skipped := by
  obtain ⟨read, skipped, hb, hs, hl⟩ := s.exists_read g
  have hf := s.follows_evaluation g
  have ht := symbols_of_evaluateTokens ha h
  have hn : s'.store.symbols.names = s.store.symbols.names ++
      ((Token.names read).filter fun name => name ∉ s.store.symbols.names).eraseDups := by
    rw [ht, hf.names_eq, ← hl]
    rfl
  have hv : ∀ name, s'.store.symbols.valueOf name =
      (lastStored? (s.effects g) name).getD (s.store.symbols.valueOf name) := by
    intro name
    rw [ht]
    exact hf.valueOf_eq name
  refine ⟨read, skipped, h, hb, hs, ?_, hl, hn, hv, hf.stores, ?_, ?_⟩
  · rintro x rfl
    exact skipped_eq_nil h hb hs
  · intro name hne
    cases hx : lastStored? (s.effects g) name with
    | none => simp [hv, hx] at hne
    | some x =>
      obtain ⟨before, later, he, hlater⟩ := exists_eq_append_of_lastStored? hx
      exact ⟨x, before, later, he, hlater, hf.stores before later name x he, by simp [hv, hx]⟩
  · intro name hr
    have hx : lastStored? (s.effects g) name = none := by
      refine lastStored?_eq_none_iff.2 fun x hx => hr ?_
      rw [← hl]
      exact hf.grounded.mem_lookedUp hx
    exact ⟨by simp [hn, hr], by simp [hv, hx]⟩

/-- Every statement of a text, whether it comes out or fails, does to the variables what its frame says. -/
theorem frames_evaluate (s : Session) (text : List Char) :
    Through (fun s g o s' => ∃ read skipped, s.Frame g o s' read skipped) s
      (segments (tokenize text)) (s.evaluate text).1 (s.evaluate text).2 :=
  through_evaluate frame_of_evaluateTokens s text

end Session

end DeskCalculator
