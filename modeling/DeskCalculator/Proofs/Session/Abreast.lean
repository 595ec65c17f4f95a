import DeskCalculator.Proofs.Session.Frame
import DeskCalculator.Proofs.Session.Ledger

set_option autoImplicit false

namespace DeskCalculator

section
variable {τ μ ν : Type} [TokenSource τ] [Memory μ] [Memory ν]

structure Memory.Abreast (M : μ → ν → Prop) : Prop where
  declare : ∀ {m n} name, M m n → M (Memory.declare m name) (Memory.declare n name)
  assign : ∀ {m n} name x y, M m n → M (Memory.assign m name x) (Memory.assign n name y)
  report : ∀ {m n} r, M m n → M (Memory.report m r) (Memory.report n r)

theorem Memory.Abreast.note {M : μ → ν → Prop} (hM : Abreast M) {m : μ} {n : ν} (h : M m n) (t : Token) :
    M (Memory.note m t) (Memory.note n t) := by
  unfold Memory.note
  split
  · exact hM.report _ h
  · exact h

def Desk.Sharing (M : μ → ν → Prop) (d : Desk τ μ) (e : Desk τ ν) : Prop :=
  d.source = e.source ∧ M d.memory e.memory

namespace Desk.Sharing

variable {M : μ → ν → Prop} {d : Desk τ μ} {e : Desk τ ν}

omit [Memory μ] [Memory ν] in
theorem current_eq (h : Sharing M d e) : d.current = e.current := congrArg TokenSource.current h.1

theorem advance (hM : Memory.Abreast M) (h : Sharing M d e) : Sharing M d.advance e.advance := by
  refine ⟨congrArg TokenSource.advance h.1, ?_⟩
  simp only [Desk.advance, h.1]
  exact hM.note h.2 _

theorem correspondence (hM : Memory.Abreast M) :
    Correspondence .valueless Eq (Sharing (τ := τ) M) where
  current h := h.current_eq ▸ .refl _
  advance h _ := h.advance hM
  declare h hv := ⟨h.1, hv ▸ hM.declare _ h.2⟩
  valueOf _ _ := trivial
  assign h hv _ _ _ := ⟨h.1, hv ▸ hM.assign _ _ _ h.2⟩
  fail h := ⟨h.1, hM.report _ h.2⟩

end Desk.Sharing

end

theorem Store.abreast_addAlike (old old' : List Report) : Memory.Abreast (AddAlike old old') where
  declare _ h := h
  assign _ _ _ h := h
  report r h := h.report r

theorem Traced.abreast_lookedUp :
    Memory.Abreast fun m n : Traced => lookedUp m.effects = lookedUp n.effects where
  declare name h := by
    change lookedUp (_ ++ _) = lookedUp (_ ++ _)
    rw [lookedUp_append, lookedUp_append, h]
  assign name x y h := by
    change lookedUp (_ ++ _) = lookedUp (_ ++ _)
    rw [lookedUp_append, lookedUp_append, h]
    rfl
  report _ h := h

namespace Session

/-- Two evaluations of a statement have nothing different but values. -/
structure Alike (s s' : Session) (g : Segment) (o o' : Outcome) (t t' : Session) : Prop where
  outcomes : (∃ x y, o = .ok x ∧ o' = .ok y) ∨ ∃ r, o = .error r ∧ o' = .error r
  lookups : lookedUp (s.effects g) = lookedUp (s'.effects g)
  reports : ∃ new, t.reports = s.reports ++ new ∧ t'.reports = s'.reports ++ new

variable {s s' t t' : Session} {g : Segment} {o o' : Outcome}

theorem outcome_of_run_error (hb : g.body ≠ []) (h : s.evaluateTokens g.tokens = ([o], t)) {r : Report}
    (hr : ((Part.expression s.levels).run ⟨g.tokens, Traced.after s.store.symbols []⟩).1 = .error r) :
    o = .error r := by
  obtain ⟨m', hs, -⟩ := exists_statement_of_evaluateTokens hb h
  have ha := (s.traces_evaluation g).1
  rw [hr] at ha
  cases he : (Part.expression s.levels).run ⟨g.tokens, s.store⟩ with
  | mk o₁ d =>
    rw [he] at ha
    cases ha
    rw [Desk.statement_of_error he] at hs
    exact (congrArg Prod.fst hs).symm

theorem lookedUp_effects_eq (hl : s.levels = s'.levels) (h : s.evaluateTokens g.tokens = ([o], t))
    (h' : s'.evaluateTokens g.tokens = ([o'], t')) (ho : o.failsWith .arithmetic = false)
    (ho' : o'.failsWith .arithmetic = false) : lookedUp (s.effects g) = lookedUp (s'.effects g) := by
  by_cases hb : g.body = []
  · obtain ⟨read, skipped, hr, -, he⟩ := s.exists_read g
    obtain ⟨read', skipped', hr', -, he'⟩ := s'.exists_read g
    obtain ⟨rfl, -⟩ := List.append_eq_nil_iff.1 (hr.symm.trans hb)
    obtain ⟨rfl, -⟩ := List.append_eq_nil_iff.1 (hr'.symm.trans hb)
    rw [he, he']
  · have hm := (Desk.Sharing.correspondence Traced.abreast_lookedUp).meets_expression
      (Nat.le_of_eq hl) (fun hlt => absurd hl (Nat.ne_of_lt hlt))
      (d := ⟨g.tokens, Traced.after s.store.symbols []⟩)
      (e := ⟨g.tokens, Traced.after s'.store.symbols []⟩) ⟨rfl, rfl⟩
    obtain ⟨r, hr, hk⟩ | ⟨r, hr, hk⟩ | ⟨-, hR⟩ := hm.outcome_cases
    · obtain rfl := outcome_of_run_error hb h hr
      cases ho.symm.trans (Outcome.failsWith_error.2 hk)
    · obtain rfl := outcome_of_run_error hb h' hr
      cases ho'.symm.trans (Outcome.failsWith_error.2 hk)
    · exact hR.2

theorem alike_of_evaluateTokens (hl : s.levels = s'.levels) (ha : g.isAnswered = true)
    (h : s.evaluateTokens g.tokens = ([o], t)) (h' : s'.evaluateTokens g.tokens = ([o'], t'))
    (ho : o.failsWith .arithmetic = false) (ho' : o'.failsWith .arithmetic = false) :
    s.Alike s' g o o' t t' := by
  have hlook := lookedUp_effects_eq hl h h' ho ho'
  obtain ⟨m, hn, rfl⟩ := g.exists_nextOutcome?_of_evaluateTokens ha h
  obtain ⟨m', hn', rfl⟩ := g.exists_nextOutcome?_of_evaluateTokens ha h'
  have hM := Store.abreast_addAlike s.reports s'.reports
  obtain ⟨_, _, hd, -⟩ | ⟨_, _, _, _, hd, he, hm⟩ := (Desk.Sharing.correspondence hM).meets_nextOutcome?
    (Nat.le_of_eq hl) (fun hlt => absurd hl (Nat.ne_of_lt hlt)) (fun h => h.advance hM)
    (fun h => by rw [h.current_eq]) (d := ⟨.finish :: g.tokens, s.store⟩)
    (e := ⟨.finish :: g.tokens, s'.store⟩) ⟨rfl, .refl _ _⟩
  · cases hn.symm.trans hd
  cases hn.symm.trans hd
  cases hn'.symm.trans he
  obtain ⟨r, rfl, hk⟩ | ⟨r, rfl, hk⟩ | ⟨hs, hR⟩ := hm.outcome_cases
  · cases ho.symm.trans (Outcome.failsWith_error.2 hk)
  · cases ho'.symm.trans (Outcome.failsWith_error.2 hk)
  · refine ⟨?_, hlook, hR.2⟩
    change Tolerance.valueless.Same o o' at hs
    cases hs with
    | value => exact .inl ⟨_, _, rfl, rfl⟩
    | failure r => exact .inr ⟨r, rfl, rfl⟩

end Session

/-- Two sessions answer the segments side by side. Each has one outcome for a segment with something to answer,
from its own tokens, and if neither has divided by zero there, all is alike but values. -/
inductive Abreast : Session → Session → List Segment → List Outcome → List Outcome → Session → Session → Prop
  | done (s s' : Session) : Abreast s s' [] [] [] s s'
  | skipped {s s' t t' : Session} {g : Segment} {gs : List Segment} {os os' : List Outcome} :
      g.isAnswered = false → Abreast s s' gs os os' t t' → Abreast s s' (g :: gs) os os' t t'
  | answered {s s' s₁ s₁' t t' : Session} {g : Segment} {gs : List Segment} {o o' : Outcome}
      {os os' : List Outcome} : g.isAnswered = true → s.evaluateTokens g.tokens = ([o], s₁) →
      s'.evaluateTokens g.tokens = ([o'], s₁') →
      (o.failsWith .arithmetic = false → o'.failsWith .arithmetic = false → s.Alike s' g o o' s₁ s₁') →
      Abreast s₁ s₁' gs os os' t t' → Abreast s s' (g :: gs) (o :: os) (o' :: os') t t'

section
variable {s s' t t' : Session} {gs : List Segment} {os os' : List Outcome}

theorem Answers.abreast (h : Answers s gs os t) (h' : Answers s' gs os' t') (hl : s.levels = s'.levels) :
    Abreast s s' gs os os' t t' := by
  induction h generalizing s' os' with
  | done s =>
    cases h'
    exact .done s _
  | skipped ha _ _ ih =>
    cases h' with
    | skipped _ _ hs => exact .skipped ha (ih hs hl)
    | answered ha' => cases ha.symm.trans ha'
  | answered ha he _ ih =>
    cases h' with
    | skipped ha' => cases ha.symm.trans ha'
    | answered _ he' hs =>
      -- Whatever has come of the segment in each of them, both go on at the next one.
      refine .answered ha he he' (Session.alike_of_evaluateTokens hl ha he he') (ih hs ?_)
      obtain ⟨m, -, rfl⟩ := Segment.exists_nextOutcome?_of_evaluateTokens ha he
      obtain ⟨m', -, rfl⟩ := Segment.exists_nextOutcome?_of_evaluateTokens ha he'
      exact hl

theorem Abreast.length_eq (h : Abreast s s' gs os os' t t') : os.length = os'.length := by
  induction h with
  | done => rfl
  | skipped _ _ ih => exact ih
  | answered _ _ _ _ _ ih => exact congrArg (· + 1) ih

end

namespace Session

/-- A text is evaluated alike in two sessions, whatever their variables are: it has as many outcomes, and the
statements with none that has divided by zero come out or fail alike, look up the same names in the same order and
make the same reports. The lexical reports are in both those that its tokens carry. -/
theorem evaluate_abreast {s s' : Session} (hl : s.levels = s'.levels) (text : List Char) :
    let t := (s.evaluate text).2
    let t' := (s'.evaluate text).2
    (s.evaluate text).1.length = (s'.evaluate text).1.length ∧
      Abreast s s' (segments (tokenize text)) (s.evaluate text).1 (s'.evaluate text).1 t t' ∧
      ∃ new new', t.reports = s.reports ++ new ∧ t'.reports = s'.reports ++ new' ∧
        new.filter (fun r => r.kind = .lexical) = (tokenize text).filterMap Token.report? ∧
        new'.filter (fun r => r.kind = .lexical) = (tokenize text).filterMap Token.report? := by
  intro t t'
  obtain ⟨ps, hp⟩ := s.exists_posted_evaluate text
  obtain ⟨ps', hp'⟩ := s'.exists_posted_evaluate text
  have hf := hp.filter_lexical
  have hf' := hp'.filter_lexical
  rw [flatMap_tokens_segments] at hf hf'
  have h := (answers_tokenize s text).abreast (answers_tokenize s' text) hl
  exact ⟨h.length_eq, h, _, _, hp.reports, hp'.reports, hf, hf'⟩

theorem evaluate_abreast_quotient :
    let s : Session := {}
    let s' := Session.set {} "x" 4.0
    let text := "1 / x; 2 ? y = 2 +".toList
    let t := (s.evaluate text).2
    let t' := (s'.evaluate text).2
    let bad := (Cause.badToken '?').report
    s.levels = s'.levels ∧
      Abreast s s' (segments (tokenize text))
        [.error Cause.divideByZero.report, .error bad, .error Cause.primaryExpected.report]
        [.ok 0.25, .error bad, .error Cause.primaryExpected.report] t t' ∧
      ∃ new new', t.reports = s.reports ++ new ∧ t'.reports = s'.reports ++ new' ∧
        new.filter (fun r => r.kind = .lexical) = [bad] ∧ new'.filter (fun r => r.kind = .lexical) = [bad] := by
  intro s s' text t t' bad
  have hl : s.levels = s'.levels := rfl
  have ho : (s.evaluate text).1 =
      [.error Cause.divideByZero.report, .error bad, .error Cause.primaryExpected.report] := by
    set_option maxRecDepth 10000 in decide +kernel
  have ho' : (s'.evaluate text).1 = [.ok 0.25, .error bad, .error Cause.primaryExpected.report] := by
    set_option maxRecDepth 10000 in decide +kernel
  have hb : (tokenize text).filterMap Token.report? = [bad] := by
    set_option maxRecDepth 10000 in decide +kernel
  obtain ⟨-, ha, hr⟩ := evaluate_abreast hl text
  rw [ho, ho'] at ha
  rw [hb] at hr
  exact ⟨hl, ha, hr⟩

end Session

end DeskCalculator
