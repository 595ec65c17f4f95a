import DeskCalculator.Proofs.Evaluation.Course
import Mathlib.Data.List.Perm.Basic

set_option autoImplicit false

namespace DeskCalculator

/-- What a statement failed with, unless a token carries it. -/
def Outcome.ownReport? : Outcome → Option Report
  | .ok _ => none
  | .error r => if r.kind = .lexical then none else some r

@[simp] theorem Outcome.ownReport?_error_of_lexical {r : Report} (h : r.kind = .lexical) :
    ownReport? (.error r) = none := by
  simp [ownReport?, h]

@[simp] theorem Outcome.ownReport?_error {r : Report} (h : r.kind ≠ .lexical) :
    ownReport? (.error r) = some r := by
  simp [ownReport?, h]

/-- What a statement that ends at a token with the report `e?` may have reported. -/
structure Outcome.Accounts (o : Outcome) (e? : Option Report) (new : List Report) : Prop where
  perm : new.Perm (e?.toList ++ o.ownReport?.toList)
  failed : e?.isSome = true → ∃ r, o = .error r
  carried : ∀ r, o = .error r → r.kind = .lexical → e? = some r

def Store.reports (s : Store) : List Report := s.log.reports.toList

theorem Store.reports_note (s : Store) (t : Token) :
    (Memory.note s t).reports = s.reports ++ t.report?.toList := by
  unfold Memory.note
  cases t.report? with
  | none => simp
  | some r => exact ErrorLog.toList_add s.log r

theorem Store.reports_report (s : Store) (r : Report) :
    (Memory.report s r).reports = s.reports ++ [r] :=
  ErrorLog.toList_add s.log r

def Store.AddAlike (old old' : List Report) (m m' : Store) : Prop :=
  ∃ new, m.reports = old ++ new ∧ m'.reports = old' ++ new

namespace Store.AddAlike

variable {old old' : List Report} {m m' : Store}

theorem refl (m m' : Store) : AddAlike m.reports m'.reports m m' := ⟨[], by simp, by simp⟩

theorem report (h : AddAlike old old' m m') (r : Report) :
    AddAlike old old' (Memory.report m r) (Memory.report m' r) := by
  obtain ⟨new, hm, hm'⟩ := h
  exact ⟨new ++ [r], by rw [reports_report, hm, List.append_assoc],
    by rw [reports_report, hm', List.append_assoc]⟩

theorem note (h : AddAlike old old' m m') {t u : Token} (ht : t.report? = u.report?) :
    AddAlike old old' (Memory.note m t) (Memory.note m' u) := by
  obtain ⟨new, hm, hm'⟩ := h
  exact ⟨new ++ t.report?.toList, by rw [reports_note, hm, List.append_assoc],
    by rw [reports_note, hm', ht, List.append_assoc]⟩

theorem textFrom_eq (h : AddAlike old old' m m') :
    m.log.textFrom old.length = m'.log.textFrom old'.length := by
  obtain ⟨new, hm, hm'⟩ := h
  change m.log.reports.toList = old ++ new at hm
  change m'.log.reports.toList = old' ++ new at hm'
  simp only [ErrorLog.textFrom, hm, hm', List.drop_left]

end Store.AddAlike

namespace Desk

variable {τ : Type} [TokenSource τ]

/-- Behind the old reports stand, in some order, that of the current token and the given ones. -/
def Adds (old own : List Report) (d : Desk τ Store) : Prop :=
  ∃ new, d.memory.reports = old ++ new ∧ new.Perm (d.current.report?.toList ++ own)

variable {d d' : Desk τ Store} {old own : List Report}

theorem Adds.step (h : d.Adds old own) (hs : d.Step d') : d'.Adds old own := by
  obtain ⟨new, hd, hp⟩ := h
  cases hs with
  | declare name => exact ⟨new, hd, hp⟩
  | assign name x => exact ⟨new, hd, hp⟩
  | advance hb =>
    rw [Token.report?_of_not_boundary hb] at hp
    refine ⟨new ++ d.advance.current.report?.toList, ?_, ?_⟩
    · rw [← List.append_assoc, ← hd]
      exact d.memory.reports_note d.advance.current
    · exact (hp.append_right _).trans List.perm_append_comm

theorem Adds.proceeds (h : d.Adds old own) (hp : d.Proceeds d') : d'.Adds old own := by
  induction hp with
  | refl => exact h
  | tail _ hs ih => exact ih.step hs

theorem Adds.fail (h : d.Adds old own) (c : Cause) :
    (d.fail c).2.Adds old (own ++ [c.report]) := by
  obtain ⟨new, hd, hp⟩ := h
  refine ⟨new ++ [c.report], ?_, ?_⟩
  · rw [← List.append_assoc, ← hd]
    exact d.memory.reports_report c.report
  · rw [← List.append_assoc]
    exact hp.append_right _

theorem adds_advance (d : Desk τ Store) : d.advance.Adds d.memory.reports [] :=
  ⟨d.advance.current.report?.toList, d.memory.reports_note d.advance.current, by simp⟩

theorem accounts_statement (levels : Nat) (h : d.Adds old []) :
    ∃ new, (statement levels d).2.memory.reports = old ++ new ∧
      (statement levels d).1.Accounts (statement levels d).2.current.report? new := by
  have hc := concludes_statement levels d
  generalize statement levels d = r at hc ⊢
  cases hc with
  | @value d' x hp hr =>
    obtain ⟨new, hd, hn⟩ := h.proceeds hp
    exact ⟨new, hd, hn, by simp [hr], by simp⟩
  | @carried d' e hp he =>
    obtain ⟨new, hd, hn⟩ := h.proceeds hp
    refine ⟨new, hd, ?_, fun _ => ⟨e, rfl⟩, ?_⟩
    · rw [Outcome.ownReport?_error_of_lexical (Token.kind_of_report? he)]
      exact hn
    · rintro r ⟨⟩ -
      exact he
  | @made d₁ d' c hp hk hp' =>
    obtain ⟨new, hd, hn⟩ := ((h.proceeds hp).fail c).proceeds hp'
    refine ⟨new, hd, ?_, fun _ => ⟨c.report, rfl⟩, ?_⟩
    · rw [Outcome.ownReport?_error hk]
      exact hn
    · rintro r ⟨⟩ hr
      exact absurd hr hk

theorem accounts_nextOutcome? {levels : Nat} {o : Outcome}
    (h : nextOutcome? levels d = (some o, d')) :
    ∃ new, d'.memory.reports = d.memory.reports ++ new ∧ o.Accounts d'.current.report? new := by
  fun_induction nextOutcome? levels d with
  | case1 d e hf => simp at h
  | case2 d e hf r hr =>
    obtain ⟨new, hd, hn⟩ := adds_advance d
    simp only [Prod.mk.injEq, Option.some.injEq] at h
    obtain ⟨rfl, rfl⟩ := h
    refine ⟨new, hd, ?_, fun _ => ⟨r, rfl⟩, ?_⟩
    · rw [Outcome.ownReport?_error_of_lexical (Token.kind_of_report? hr)]
      exact hn
    · rintro r' ⟨⟩ -
      exact hr
  | case3 d e hf hr hb ih =>
    obtain ⟨new, hd, hn⟩ := ih h
    have ha : e.memory.reports = d.memory.reports ++ e.current.report?.toList :=
      d.memory.reports_note e.current
    rw [hr, Option.toList_none, List.append_nil] at ha
    exact ⟨new, ha ▸ hd, hn⟩
  | case4 d e hf hr hb out =>
    simp only [Prod.mk.injEq, Option.some.injEq] at h
    obtain ⟨rfl, rfl⟩ := h
    exact accounts_statement levels (adds_advance d)

end Desk

end DeskCalculator
