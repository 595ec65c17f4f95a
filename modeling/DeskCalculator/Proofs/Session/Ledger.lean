import DeskCalculator.Proofs.Evaluation.Reports
import DeskCalculator.Proofs.Session.Segment

set_option autoImplicit false

namespace DeskCalculator

namespace Segment

def report? (g : Segment) : Option Report := g.ending.bind Token.report?

theorem report?_firstOf_ending (g : Segment) :
    (Token.firstOf g.ending.toList).report? = g.report? := by
  unfold report?
  cases g.ending <;> rfl

theorem filterMap_report?_tokens (g : Segment) :
    g.tokens.filterMap Token.report? = g.report?.toList := by
  have hb : g.body.filterMap Token.report? = [] :=
    List.filterMap_eq_nil_iff.2 fun t ht => Token.report?_of_not_boundary (g.body_inner t ht)
  rw [tokens, List.filterMap_append, hb, List.nil_append]
  unfold report?
  cases g.ending with
  | none => rfl
  | some e => cases he : e.report? <;> simp [he]

theorem report?_of_not_answered {g : Segment} (h : g.isAnswered = false) : g.report? = none := by
  have hb : g.endsBadly = false := (Bool.or_eq_false_iff.1 h).2
  rw [← g.report?_firstOf_ending]
  exact report?_ending hb

end Segment

def Outcome.carriedReport? : Outcome → Option Report
  | .ok _ => none
  | .error r => if r.kind = .lexical then some r else none

/-- A statement with something to answer, what came of it, and the reports that were made over it. -/
structure Posting where
  segment : Segment
  outcome : Outcome
  reports : List Report

namespace Posting

def Balanced (p : Posting) : Prop := p.outcome.Accounts p.segment.report? p.reports

variable {p : Posting}

theorem Balanced.mem_reports (h : p.Balanced) {r : Report} (hr : p.outcome = .error r) :
    r ∈ p.reports := by
  refine h.perm.mem_iff.2 (List.mem_append.2 ?_)
  by_cases hk : r.kind = .lexical
  · exact .inl (by simp [h.carried r hr hk])
  · exact .inr (by simp [hr, hk])

theorem Balanced.reports_eq_nil_iff (h : p.Balanced) :
    p.reports = [] ↔ ∃ x, p.outcome = .ok x := by
  constructor
  · intro hn
    cases ho : p.outcome with
    | ok x => exact ⟨x, rfl⟩
    | error r => simpa [hn] using h.mem_reports ho
  · rintro ⟨x, hx⟩
    have he : p.segment.report? = none := by
      cases he : p.segment.report? with
      | none => rfl
      | some e =>
        obtain ⟨r, hr⟩ := h.failed (by simp [he])
        simp [hx] at hr
    exact List.perm_nil.1 (by simpa [he, hx, Outcome.ownReport?] using h.perm)

theorem Balanced.report?_of_carried (h : p.Balanced) {r : Report}
    (hr : p.outcome.carriedReport? = some r) : p.segment.report? = some r := by
  cases ho : p.outcome with
  | ok x => simp [ho, Outcome.carriedReport?] at hr
  | error e =>
    rw [ho, Outcome.carriedReport?] at hr
    split at hr <;> cases hr
    exact h.carried r ho ‹_›

theorem Balanced.countP_le_one (h : p.Balanced) :
    p.reports.countP (fun r => r.kind ≠ .lexical) ≤ 1 := by
  rw [h.perm.countP_eq, List.countP_append]
  have he : p.segment.report?.toList.countP (fun r => r.kind ≠ .lexical) = 0 := by
    rw [← p.segment.report?_firstOf_ending]
    cases hr : (Token.firstOf p.segment.ending.toList).report? with
    | none => rfl
    | some r => simp [Token.kind_of_report? hr]
  have ho := List.countP_le_length (p := fun r : Report => decide (r.kind ≠ .lexical))
    (l := p.outcome.ownReport?.toList)
  have hl : p.outcome.ownReport?.toList.length ≤ 1 := by cases p.outcome.ownReport? <;> simp
  omega

/-- Of the reports made over a statement the lexical ones are that of the token that ends it. -/
theorem Balanced.filter_lexical (h : p.Balanced) :
    p.reports.filter (fun r => r.kind = .lexical) = p.segment.report?.toList := by
  have he : p.segment.report?.toList.filter (fun r => r.kind = .lexical) = p.segment.report?.toList := by
    rw [← p.segment.report?_firstOf_ending]
    cases hr : (Token.firstOf p.segment.ending.toList).report? with
    | none => rfl
    | some r => simp [Token.kind_of_report? hr]
  have ho : p.outcome.ownReport?.toList.filter (fun r => r.kind = .lexical) = [] := by
    cases p.outcome with
    | ok x => rfl
    | error r => by_cases hk : r.kind = .lexical <;> simp [hk]
  have hp := h.perm.filter fun r => r.kind = .lexical
  rw [List.filter_append, he, ho, List.append_nil] at hp
  cases hr : p.segment.report? with
  | none => exact List.perm_nil.1 (by simpa [hr] using hp)
  | some r => exact List.perm_singleton.1 (by simpa [hr] using hp)

end Posting

namespace Session

def reports (s : Session) : List Report := s.store.reports

theorem length_reports (s : Session) : s.reports.length = s.errorCount :=
  Array.length_toList

/-- What a session has reported over some segments, with the postings that show it. -/
structure Posted (s s' : Session) (gs : List Segment) (os : List Outcome) (ps : List Posting) :
    Prop where
  outcomes : ps.map Posting.outcome = os
  segments : ps.map Posting.segment = gs.filter Segment.isAnswered
  balanced : ∀ p ∈ ps, p.Balanced
  reports : s'.reports = s.reports ++ ps.flatMap Posting.reports

namespace Posted

variable {s s₁ s' : Session} {gs gs' : List Segment} {os os' : List Outcome} {ps ps' : List Posting}

theorem append (h : Posted s s₁ gs os ps) (h' : Posted s₁ s' gs' os' ps') :
    Posted s s' (gs ++ gs') (os ++ os') (ps ++ ps') where
  outcomes := by rw [List.map_append, h.outcomes, h'.outcomes]
  segments := by rw [List.map_append, h.segments, h'.segments, List.filter_append]
  balanced p hp := (List.mem_append.1 hp).elim (h.balanced p) (h'.balanced p)
  reports := by rw [h'.reports, h.reports, List.flatMap_append, List.append_assoc]

theorem filterMap_tokens (h : Posted s s' gs os ps) :
    (gs.flatMap Segment.tokens).filterMap Token.report? = ps.filterMap (·.segment.report?) := by
  have hg : gs.filterMap Segment.report? = (gs.filter Segment.isAnswered).filterMap Segment.report? := by
    rw [List.filterMap_filter]
    refine List.filterMap_congr fun g _ => ?_
    split
    · rfl
    · rename_i ha
      exact Segment.report?_of_not_answered (Bool.eq_false_iff.2 ha)
  calc (gs.flatMap Segment.tokens).filterMap Token.report?
    _ = gs.flatMap fun g => g.report?.toList := by
      simp only [List.filterMap_flatMap, Segment.filterMap_report?_tokens]
    _ = gs.filterMap Segment.report? := (List.filterMap_eq_flatMap_toList _ _).symm
    _ = ps.filterMap (·.segment.report?) := by
      rw [hg, ← h.segments, List.filterMap_map]
      rfl

theorem filter_lexical (h : Posted s s' gs os ps) :
    (ps.flatMap Posting.reports).filter (fun r => r.kind = .lexical) =
      (gs.flatMap Segment.tokens).filterMap Token.report? := by
  rw [h.filterMap_tokens, List.filterMap_eq_flatMap_toList, List.filter_flatMap]
  exact List.flatMap_congr fun p hp => (h.balanced p hp).filter_lexical

theorem filterMap_outcomes (h : Posted s s' gs os ps) (f : Outcome → Option Report) :
    os.filterMap f = ps.filterMap (f ·.outcome) := by
  rw [← h.outcomes, List.filterMap_map]
  rfl

theorem perm (h : Posted s s' gs os ps) :
    (ps.flatMap Posting.reports).Perm
      ((gs.flatMap Segment.tokens).filterMap Token.report? ++ os.filterMap Outcome.ownReport?) := by
  rw [h.filterMap_tokens, h.filterMap_outcomes, List.filterMap_eq_flatMap_toList,
    List.filterMap_eq_flatMap_toList]
  exact (List.Perm.flatMap_left ps fun p hp => (h.balanced p hp).perm).trans
    (List.flatMap_append_perm ps _ _).symm

theorem errorCount_eq_add_length (h : Posted s s' gs os ps) :
    s'.errorCount = s.errorCount + (ps.flatMap Posting.reports).length := by
  rw [← s'.length_reports, h.reports, List.length_append, s.length_reports]

theorem errorCount_eq (h : Posted s s' gs os ps) :
    s'.errorCount = s.errorCount +
      (gs.flatMap Segment.tokens).countP (fun t => t.report?.isSome) +
      os.countP (fun o => o.ownReport?.isSome) := by
  rw [h.errorCount_eq_add_length, h.perm.length_eq, List.length_append, List.length_filterMap_eq_countP,
    List.length_filterMap_eq_countP, Nat.add_assoc]

theorem text_eq (h : Posted s s' gs os ps) :
    s'.store.log.text = s.store.log.text ++
      String.join ((ps.flatMap Posting.reports).map fun r => "error: " ++ r.message ++ "\n") := by
  have hr : s'.store.log.reports.toList = s.store.log.reports.toList ++ ps.flatMap Posting.reports :=
    h.reports
  simp only [ErrorLog.text, ErrorLog.textFrom, List.drop_zero, hr, List.map_append, String.join_append]
  rfl

theorem sublist_carried (h : Posted s s' gs os ps) :
    (os.filterMap Outcome.carriedReport?).Sublist
      ((gs.flatMap Segment.tokens).filterMap Token.report?) := by
  rw [h.filterMap_tokens, h.filterMap_outcomes]
  have hf : ps.filterMap (·.outcome.carriedReport?) =
      (ps.filter (·.outcome.carriedReport?.isSome)).filterMap (·.segment.report?) := by
    rw [List.filterMap_filter]
    refine List.filterMap_congr fun p hp => ?_
    cases hc : p.outcome.carriedReport? with
    | none => rfl
    | some r => simp [(h.balanced p hp).report?_of_carried hc]
  rw [hf]
  exact List.filter_sublist.filterMap _

theorem mem_reports (h : Posted s s' gs os ps) {r : Report} (hr : .error r ∈ os) :
    r ∈ ps.flatMap Posting.reports := by
  rw [← h.outcomes] at hr
  obtain ⟨p, hp, ho⟩ := List.mem_map.1 hr
  exact List.mem_flatMap.2 ⟨p, hp, (h.balanced p hp).mem_reports ho⟩

theorem errorCount_eq_iff (h : Posted s s' gs os ps) :
    s'.errorCount = s.errorCount ↔ ∀ o ∈ os, ∃ x, o = .ok x := by
  rw [h.errorCount_eq_add_length, Nat.add_eq_left, List.length_eq_zero_iff, List.flatMap_eq_nil_iff, ← h.outcomes,
    List.forall_mem_map]
  exact forall₂_congr fun p hp => (h.balanced p hp).reports_eq_nil_iff

end Posted

theorem posted_nil (s : Session) : Posted s s [] [] [] := ⟨rfl, rfl, by simp, by simp⟩

theorem exists_posted_answered {s s' : Session} {g : Segment} {o : Outcome}
    (ha : g.isAnswered = true) (h : s.evaluateTokens g.tokens = ([o], s')) :
    ∃ p, Posted s s' [g] [o] [p] := by
  obtain ⟨m', hn, rfl⟩ := g.exists_nextOutcome?_of_evaluateTokens ha h
  obtain ⟨new, hr, hb⟩ := Desk.accounts_nextOutcome? hn
  rw [Desk.current_mk, g.report?_firstOf_ending] at hb
  exact ⟨⟨g, o, new⟩, rfl, by simp [ha], List.forall_mem_singleton.2 hb,
    by rw [List.flatMap_singleton]; exact hr⟩

end Session

theorem Answers.exists_posted {s s' : Session} {gs : List Segment} {os : List Outcome}
    (h : Answers s gs os s') : ∃ ps, s.Posted s' gs os ps := by
  induction h with
  | done s => exact ⟨[], s.posted_nil⟩
  | skipped ha _ _ ih =>
    obtain ⟨ps, hp⟩ := ih
    exact ⟨ps, hp.outcomes, by simp [hp.segments, ha], hp.balanced, hp.reports⟩
  | answered ha he _ ih =>
    obtain ⟨p, hp⟩ := Session.exists_posted_answered ha he
    obtain ⟨ps, hps⟩ := ih
    exact ⟨p :: ps, hp.append hps⟩

inductive Call
  | evaluate (text : List Char)
  | calculate (text : List Char)

namespace Call

def text : Call → List Char
  | .evaluate text | .calculate text => text

def segments (c : Call) : List Segment := DeskCalculator.segments (tokenize c.text)

end Call

namespace Session

theorem exists_posted_evaluate (s : Session) (text : List Char) :
    ∃ ps, s.Posted (s.evaluate text).2 (segments (tokenize text)) (s.evaluate text).1 ps :=
  (answers_tokenize s text).exists_posted

def answer (s : Session) : Call → List Outcome × Session
  | .evaluate text => s.evaluate text
  | .calculate text => ((s.evaluate text).1, (s.calculate text).2)

def answerAll (s : Session) : List Call → List Outcome × Session
  | [] => ([], s)
  | c :: cs =>
    let others := (s.answer c).2.answerAll cs
    ((s.answer c).1 ++ others.1, others.2)

theorem exists_posted_answer (s : Session) (c : Call) :
    ∃ ps, s.Posted (s.answer c).2 c.segments (s.answer c).1 ps := by
  cases c with
  | evaluate text => exact s.exists_posted_evaluate text
  | calculate text => exact s.exists_posted_evaluate text

theorem exists_posted_answerAll (s : Session) (cs : List Call) :
    ∃ ps, s.Posted (s.answerAll cs).2 (cs.flatMap Call.segments) (s.answerAll cs).1 ps := by
  induction cs generalizing s with
  | nil => exact ⟨[], s.posted_nil⟩
  | cons c cs ih =>
    obtain ⟨ps, hp⟩ := s.exists_posted_answer c
    obtain ⟨ps', hp'⟩ := ih (s.answer c).2
    exact ⟨ps ++ ps', hp.append hp'⟩

/-- Over any calls there is one posting for each statement that has an outcome, and the reports are those
of the postings. -/
theorem reports_answerAll (s : Session) (cs : List Call) :
    let tokens := cs.flatMap fun c => tokenize c.text
    let outcomes := (s.answerAll cs).1
    let s' := (s.answerAll cs).2
    ∃ ps : List Posting,
      ps.map Posting.outcome = outcomes ∧
      ps.map Posting.segment = (cs.flatMap Call.segments).filter Segment.isAnswered ∧
      (cs.flatMap Call.segments).flatMap Segment.tokens = tokens ∧
      (∀ p ∈ ps, p.Balanced ∧ p.reports.countP (fun r => r.kind ≠ .lexical) ≤ 1) ∧
      s'.reports = s.reports ++ ps.flatMap Posting.reports ∧
      (ps.flatMap Posting.reports).Perm
        (tokens.filterMap Token.report? ++ outcomes.filterMap Outcome.ownReport?) ∧
      s'.errorCount = s.errorCount + tokens.countP (fun t => t.report?.isSome) +
        outcomes.countP (fun o => o.ownReport?.isSome) ∧
      s'.store.log.text = s.store.log.text ++
        String.join ((ps.flatMap Posting.reports).map fun r => "error: " ++ r.message ++ "\n") ∧
      (∀ r, .error r ∈ outcomes → r ∈ ps.flatMap Posting.reports) ∧
      (outcomes.filterMap Outcome.carriedReport?).Sublist (tokens.filterMap Token.report?) ∧
      (s'.errorCount = s.errorCount ↔ ∀ o ∈ outcomes, ∃ x, o = .ok x) := by
  intro tokens outcomes s'
  obtain ⟨ps, h⟩ := s.exists_posted_answerAll cs
  have ht : (cs.flatMap Call.segments).flatMap Segment.tokens = tokens := by
    simp only [List.flatMap_assoc, Call.segments, flatMap_tokens_segments, tokens]
  have hb : ∀ p ∈ ps, p.Balanced ∧ p.reports.countP (fun r => r.kind ≠ .lexical) ≤ 1 :=
    fun p hp => ⟨h.balanced p hp, (h.balanced p hp).countP_le_one⟩
  refine ⟨ps, h.outcomes, h.segments, ht, hb, h.reports, ?_, ?_, h.text_eq, fun r => h.mem_reports, ?_,
    h.errorCount_eq_iff⟩
  · exact ht ▸ h.perm
  · exact ht ▸ h.errorCount_eq
  · exact ht ▸ h.sublist_carried

end Session

end DeskCalculator
