import DeskCalculator.Proofs.Attempt.Session
import DeskCalculator.Proofs.Session.Ledger
import DeskCalculator.Proofs.Text.LineBreaks

set_option autoImplicit false

namespace DeskCalculator

open Text

namespace Decimal

theorem isVisible_exponentText (e : Int) : (exponentText e).all isVisible = true := by
  have hs : isVisible (if e < 0 then '-' else '+') = true := by split <;> decide
  have he : isVisible 'e' = true := by decide
  have hz : isVisible '0' = true := by decide
  simp [exponentText, he, hs, hz, isVisible_toDigits]

theorem isVisible_plainText {ds : List Char} (h : ds.all isVisible = true) (places : Int) :
    (plainText ds places).all isVisible = true := by
  have hp : isVisible '.' = true := by decide
  have hz : isVisible '0' = true := by decide
  unfold plainText
  split
  · simp [hp, hz, h]
  · split
    · simp [hp, hz, h]
    · rw [← List.take_append_drop places.toNat ds, List.all_append, Bool.and_eq_true] at h
      simp [hp, h]

theorem isVisible_scientificText {ds : List Char} (h : ds.all isVisible = true) (e : Int) :
    (scientificText ds e).all isVisible = true := by
  have hp : isVisible '.' = true := by decide
  unfold scientificText
  split
  · rfl
  · simpa [isVisible_exponentText] using h
  · simpa [isVisible_exponentText, hp] using h

theorem isVisible_text (d : Decimal) : d.text.all isVisible = true := by
  unfold text
  simp only
  split
  · exact isVisible_plainText (isVisible_toDigits d.digits) _
  · exact isVisible_scientificText (isVisible_toDigits d.digits) _

end Decimal

theorem isVisible_signed (s : Float.Model.UnpackedFloat.Sign) {text : List Char} (h : text.all isVisible = true) :
    (signed s text).all isVisible = true := by
  cases s with
  | negative => simpa [signed] using ⟨by decide, by simpa using h⟩
  | positive => exact h

theorem isVisible_numberText (x : Float) : (numberText x).all isVisible = true := by
  unfold numberText
  split
  · decide
  · exact isVisible_signed _ (by decide)
  · exact isVisible_signed _ (by decide)
  · exact isVisible_signed _ (Decimal.isVisible_text _)

theorem isVisible_displayText (x : Float) : (displayText x).all isVisible = true := by
  unfold displayText
  split
  · exact isVisible_signed _ (isVisible_toDigits _)
  · exact isVisible_numberText x

/-- What is said about a mistake stands on one line, whatever character it shows. -/
theorem Cause.isUnbroken_line (c : Cause) : IsUnbroken c.report.line.toList := by
  have hp : IsUnbroken "error: ".toList := isUnbroken_of_all (by decide)
  rw [Report.line, String.toList_append]
  refine hp.append ?_
  cases c with
  | badToken c =>
    have ht : IsUnbroken "bad token ".toList := isUnbroken_of_all (by decide)
    have hm : (badToken c).report.message.toList = "bad token ".toList ++ quoted [c] := by
      simp [report, message]
    rw [hm]
    exact ht.append (isUnbroken_quoted [c])
  | unexpected k => cases k <;> exact isUnbroken_of_all (by decide)
  | _ => exact isUnbroken_of_all (by decide)

theorem Token.exists_cause {t : Token} {r : Report} (h : t.report? = some r) : ∃ c : Cause, r = c.report := by
  obtain ⟨c, -, rfl⟩ := Option.map_eq_some_iff.1 h
  exact ⟨c, rfl⟩

namespace Desk

variable {τ μ : Type} [TokenSource τ] [Memory μ] {n : Nat} {d d' : Desk τ μ} {r : Report}

theorem Concludes.exists_cause (h : d.Concludes (.error r, d')) : ∃ c : Cause, r = c.report := by
  cases h with
  | carried _ he => exact Token.exists_cause he
  | made => exact ⟨_, rfl⟩

theorem exists_cause_of_nextOutcome? (h : nextOutcome? n d = (some (.error r), d')) :
    ∃ c : Cause, r = c.report := by
  fun_induction nextOutcome? n d with
  | case1 d e hf => simp at h
  | case2 d e hf r' hr =>
    obtain ⟨⟨⟩, -⟩ := Prod.mk.inj h
    exact Token.exists_cause hr
  | case3 d e hf hr hb ih => exact ih h
  | case4 d e hf hr hb out =>
    obtain ⟨ho, -⟩ := Prod.mk.inj h
    have hc := concludes_statement n e
    rw [show statement n e = (.error r, out.2) from Prod.ext (Option.some.inj ho) rfl] at hc
    exact hc.exists_cause

theorem exists_cause_of_outcomes (h : .error r ∈ (outcomes n d).1) : ∃ c : Cause, r = c.report := by
  fun_induction outcomes n d with
  | case1 d d' hd => simp at h
  | case2 d o d' hd others ih =>
    obtain rfl | h := List.mem_cons.1 h
    · exact exists_cause_of_nextOutcome? hd
    · exact ih h

end Desk

namespace Session

theorem Posted.exists_cause {s s' : Session} {gs : List Segment} {os : List Outcome} {ps : List Posting}
    (h : Posted s s' gs os ps) (ho : ∀ r, .error r ∈ os → ∃ c : Cause, r = c.report) {r : Report}
    (hr : r ∈ ps.flatMap Posting.reports) : ∃ c : Cause, r = c.report := by
  obtain hr | hr := List.mem_append.1 (h.perm.mem_iff.1 hr)
  · obtain ⟨t, -, ht⟩ := List.mem_filterMap.1 hr
    exact Token.exists_cause ht
  · obtain ⟨o, hm, ho'⟩ := List.mem_filterMap.1 hr
    cases o with
    | ok x => simp [Outcome.ownReport?] at ho'
    | error e =>
      obtain rfl : e = r := by
        rw [Outcome.ownReport?] at ho'
        split at ho' <;> simp_all
      exact ho e hm

theorem textFrom_errorCount {s s' : Session} {new : List Report} (h : s'.reports = s.reports ++ new) :
    (s'.store.log.textFrom s.errorCount).toList = joinLines (new.map fun r => r.line.toList) := by
  have hd : s'.store.log.reports.toList.drop s.errorCount = new := by
    rw [← s.length_reports]
    exact (congrArg _ h).trans List.drop_left
  rw [ErrorLog.textFrom, hd]
  exact toList_join Report.line new

theorem text_eq_append_textFrom {s s' : Session} {new : List Report} (h : s'.reports = s.reports ++ new) :
    s'.store.log.text = s.store.log.text ++ s'.store.log.textFrom s.errorCount := by
  change s'.store.log.reports.toList = s.store.log.reports.toList ++ new at h
  have hc : s.errorCount = s.store.log.reports.toList.length := Array.length_toList.symm
  simp only [ErrorLog.text, ErrorLog.textFrom, h, hc, List.drop_zero, List.drop_left, List.map_append,
    String.join_append]

/-- The text that a calculation prints has one line for each value, in order, and what it writes to the error stream
has one for each report that it adds. No line is broken into others. -/
theorem lines_calculate (s : Session) (text : List Char) :
    let values := (s.evaluate text).1.filterMap Except.toOption
    let s' := (s.calculate text).2
    let written := s'.store.log.textFrom s.errorCount
    (s.calculate text).1 = String.join (values.map fun x => String.ofList (displayText x) ++ "\n") ∧
      (∀ x, IsUnbroken (displayText x)) ∧
      splitLines (s.calculate text).1.toList = values.map displayText ∧
      s'.store.log.text = s.store.log.text ++ written ∧
      s'.errorCount = s.errorCount + (splitLines written.toList).length ∧
      ∃ new : List Report, s'.reports = s.reports ++ new ∧ (∀ r ∈ new, ∃ c : Cause, r = c.report) ∧
        splitLines written.toList = new.map fun r => r.line.toList := by
  intro values s' written
  have hd : ∀ x, IsUnbroken (displayText x) := fun x => isUnbroken_of_isVisible (isVisible_displayText x)
  have ho : (s.calculate text).1 = String.join (values.map fun x => String.ofList (displayText x) ++ "\n") :=
    Outcome.join_printed (s.evaluate text).1
  obtain ⟨ps, hp⟩ := s.exists_posted_evaluate text
  have hr : s'.reports = s.reports ++ ps.flatMap Posting.reports := hp.reports
  have hc : ∀ r ∈ ps.flatMap Posting.reports, ∃ c : Cause, r = c.report :=
    fun r => hp.exists_cause fun _ => Desk.exists_cause_of_outcomes
  have hu : ∀ r ∈ ps.flatMap Posting.reports, IsUnbroken r.line.toList := by
    intro r hm
    obtain ⟨c, rfl⟩ := hc r hm
    exact c.isUnbroken_line
  have hl : splitLines written.toList = (ps.flatMap Posting.reports).map fun r => r.line.toList := by
    rw [textFrom_errorCount hr, splitLines_joinLines (List.forall_mem_map.2 hu)]
  refine ⟨ho, hd, ?_, text_eq_append_textFrom hr, ?_, _, hr, hc, hl⟩
  · rw [ho, toList_join]
    simp only [String.toList_ofList]
    exact splitLines_joinLines (List.forall_mem_map.2 fun x _ => hd x)
  · rw [hl, List.length_map, ← s'.length_reports, hr, List.length_append, s.length_reports]

end Session

end DeskCalculator
