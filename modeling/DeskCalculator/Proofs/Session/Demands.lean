import DeskCalculator.Proofs.Evaluation.Calls
import DeskCalculator.Proofs.Evaluation.Reports
import DeskCalculator.Proofs.Session.Exhaustion

/-!
An evaluator of which one thing after another is demanded, with no session to skip what is left of a statement
that has failed. Main statement: on a demand the mistakes of the tokens that are read are reported, and behind them
one more exactly where the evaluator fails with a mistake of its own. Any other failure is with the mistake of the
token that is the current one then.
-/
set_option autoImplicit false

namespace DeskCalculator

inductive Demand
  | advance
  | phrase (q : Rank) (readsFirst : Bool)
  deriving DecidableEq

theorem ErrorLog.last?_eq (l : ErrorLog) : l.last? = l.reports.toList.getLast? := by
  simp [last?]

theorem Outcome.bind_ownReport?_eq_none {o : Option Outcome}
    (h : ∀ e, o = some (.error e) → e.kind = .lexical) : o.bind ownReport? = none := by
  rcases o with _ | e | x
  · rfl
  · exact ownReport?_error_of_lexical (h e rfl)
  · rfl

section
variable {τ σ μ ν : Type} [TokenSource τ] [TokenSource σ] [Memory μ] [Memory ν]

theorem Part.comesOut_ofRank (n : Nat) (q : Rank) : (ofRank n q : Part τ μ).ComesOut := by
  have ht := comesOut_chain (comesOut_primary (τ := τ) (μ := μ) n) .product
  cases q with
  | primary => exact comesOut_primary n
  | term => exact ht
  | expression => exact comesOut_chain ht .sum

theorem Simulation.simulates_ofRank {V : String → String → Prop} {R : Desk τ μ → Desk σ ν → Prop}
    (S : Simulation V R) (n : Nat) (q : Rank) :
    (Part.ofRank n q : Part τ μ).Simulates R (Part.ofRank n q : Part σ ν) := by
  intro d e h
  have hp := S.correspondence.corresponds_primary (Nat.le_refl n) (by simp)
  have ht := S.correspondence.corresponds_chain hp .product
  cases q with
  | primary => exact (hp.meets h).agree
  | term => exact (ht.meets h).agree
  | expression => exact ((S.correspondence.corresponds_chain ht .sum).meets h).agree

end

namespace Desk

section
variable {τ μ : Type}

def recording (ts : List Token) (d : Desk τ μ) : Desk (Recorded τ) μ where
  source := { source := d.source, delivered := ts }
  memory := d.memory

theorem eq_recording {d : Desk (Recorded τ) μ} {e : Desk τ μ} (h : Records d e) :
    d = e.recording d.source.delivered := by
  obtain ⟨⟨s, ts⟩, m⟩ := d
  obtain ⟨rfl, rfl⟩ := h
  rfl

/-- Between the desks the tokens are delivered, and nothing is reported but their mistakes. -/
def Notes (ts : List Token) (d d' : Desk (Recorded τ) Store) : Prop :=
  d'.source.delivered = d.source.delivered ++ ts ∧
    d'.memory.reports = d.memory.reports ++ ts.filterMap Token.report?

variable {d d' d'' : Desk (Recorded τ) Store}

theorem Notes.refl (d : Desk (Recorded τ) Store) : Notes [] d d := ⟨by simp, by simp⟩

theorem Notes.trans {ts us : List Token} (h : Notes ts d d') (h' : Notes us d' d'') :
    Notes (ts ++ us) d d'' := by
  obtain ⟨hd, hm⟩ := h
  obtain ⟨hd', hm'⟩ := h'
  constructor
  · rw [hd', hd, List.append_assoc]
  · rw [hm', hm, List.filterMap_append, List.append_assoc]

end

section
variable {τ μ : Type} [TokenSource τ] [Memory μ]

/-- What is returned on a demand, if it returns anything, and the desk after it. -/
def demand (limit : Nat) (d : Desk τ μ) : Demand → Option Outcome × Desk τ μ
  | .advance => (none, d.advance)
  | .phrase q b =>
    let result := (Part.ofRank limit q).run (d.opened b)
    (some result.1, result.2)

def demands (limit : Nat) (d : Desk τ μ) (ms : List Demand) : Desk τ μ :=
  ms.foldl (fun d m => (d.demand limit m).2) d

theorem demand_recording (limit : Nat) (ts : List Token) (d : Desk τ μ) (m : Demand) :
    ∃ us, (d.recording ts).demand limit m = ((d.demand limit m).1, (d.demand limit m).2.recording us) := by
  have h : Records (d.recording ts) d := ⟨rfl, rfl⟩
  cases m with
  | advance => exact ⟨_, rfl⟩
  | phrase q b =>
    have ho : Records ((d.recording ts).opened b) (d.opened b) := by
      cases b with
      | false => exact h
      | true => exact h.advance
    obtain ⟨hr, hd⟩ := simulation_records.simulates_ofRank limit q _ _ ho
    exact ⟨_, Prod.ext (congrArg some hr) (eq_recording hd)⟩

theorem ComesOut.report?_current {d d' : Desk τ μ} {e : Report} (h : d.ComesOut (.error e, d'))
    (he : e.kind = .lexical) : d'.current.report? = some e := by
  cases h with
  | carried _ hr => exact hr
  | made _ hk => exact absurd he hk

theorem report?_current_demand {limit : Nat} {d : Desk τ μ} {m : Demand} {e : Report}
    (h : (d.demand limit m).1 = some (.error e)) (he : e.kind = .lexical) :
    (d.demand limit m).2.current.report? = some e := by
  cases m with
  | advance => cases h
  | phrase q b =>
    have hc := Part.comesOut_ofRank limit q (d.opened b)
    refine ComesOut.report?_current (d := d.opened b) ?_ he
    rw [← Option.some.inj h]
    exact hc

end

section
variable {τ : Type} [TokenSource τ] {d d' : Desk (Recorded τ) Store}

theorem notes_advance (d : Desk (Recorded τ) Store) : Notes [d.advance.current] d d.advance := by
  refine ⟨rfl, ?_⟩
  have hm : d.advance.memory.reports = d.memory.reports ++ d.advance.current.report?.toList :=
    d.memory.reports_note d.advance.current
  rw [hm]
  cases hr : d.advance.current.report? <;> simp [hr]

theorem exists_notes_opened (b : Bool) (d : Desk (Recorded τ) Store) : ∃ ts, Notes ts d (d.opened b) := by
  cases b with
  | false => exact ⟨_, .refl d⟩
  | true => exact ⟨_, notes_advance d⟩

theorem Step.exists_notes (h : d.Step d') : ∃ ts, Notes ts d d' := by
  cases h with
  | declare name => exact ⟨_, .refl d⟩
  | assign name x => exact ⟨_, .refl d⟩
  | advance hb => exact ⟨_, notes_advance d⟩

theorem Proceeds.exists_notes (h : d.Proceeds d') : ∃ ts, Notes ts d d' := by
  induction h with
  | refl => exact ⟨_, .refl d⟩
  | tail _ hs ih =>
    obtain ⟨ts, ht⟩ := ih
    obtain ⟨us, hu⟩ := hs.exists_notes
    exact ⟨ts ++ us, ht.trans hu⟩

/-- Behind the mistakes of the tokens that are read stands the one that a part fails with by itself. -/
theorem ComesOut.exists_notes {o : Outcome} (h : d.ComesOut (o, d')) :
    ∃ ts d₁, Notes ts d d₁ ∧ d'.source = d₁.source ∧
      d'.memory.reports = d₁.memory.reports ++ o.ownReport?.toList := by
  cases h with
  | value x hp =>
    obtain ⟨ts, hn⟩ := hp.exists_notes
    exact ⟨ts, d', hn, rfl, by simp [Outcome.ownReport?]⟩
  | carried hp he =>
    obtain ⟨ts, hn⟩ := hp.exists_notes
    exact ⟨ts, d', hn, rfl, by simp [Token.kind_of_report? he]⟩
  | @made d₁ c hp hk =>
    obtain ⟨ts, hn⟩ := hp.exists_notes
    refine ⟨ts, d₁, hn, rfl, ?_⟩
    rw [Outcome.ownReport?_error hk]
    exact d₁.memory.reports_report c.report

theorem exists_notes_demand (limit : Nat) (d : Desk (Recorded τ) Store) (m : Demand) :
    ∃ ts d₁, Notes ts d d₁ ∧ (d.demand limit m).2.source = d₁.source ∧
      (d.demand limit m).2.memory.reports =
        d₁.memory.reports ++ ((d.demand limit m).1.bind Outcome.ownReport?).toList := by
  cases m with
  | advance => exact ⟨_, d.advance, notes_advance d, rfl, by simp [demand]⟩
  | phrase q b =>
    obtain ⟨ts, ht⟩ := exists_notes_opened b d
    obtain ⟨us, d₁, hu, hs, hm⟩ := (Part.comesOut_ofRank limit q (d.opened b)).exists_notes
    exact ⟨ts ++ us, d₁, ht.trans hu, hs, hm⟩

theorem exists_read_demand (limit : Nat) (d : Desk τ Store) (m : Demand) :
    ∃ read, (d.recording []).demand limit m = ((d.demand limit m).1, (d.demand limit m).2.recording read) ∧
      (d.demand limit m).2.memory.reports = d.memory.reports ++ read.filterMap Token.report? ++
        ((d.demand limit m).1.bind Outcome.ownReport?).toList := by
  obtain ⟨read, hread⟩ := demand_recording limit [] d m
  obtain ⟨ts, d₁, ⟨hd, hm⟩, hs, hr⟩ := exists_notes_demand limit (d.recording []) m
  rw [hread] at hs hr
  obtain rfl : read = ts := (congrArg Recorded.delivered hs).trans hd
  rw [hm] at hr
  exact ⟨read, hread, hr⟩

end

/-- Whatever has been demanded of an evaluator, on the next demand it reports the mistakes of the tokens that it
reads, one for each, and behind them one more exactly if it fails with a mistake that no token carries. That one it
has failed with. With a mistake that a token carries it fails only where that token is the current one then. -/
theorem reports_demand (limit : Nat) (d : Desk TokenStream Store) (ms : List Demand) (m : Demand) :
    let before := d.demands limit ms
    let result := (before.demand limit m).1
    let after := (before.demand limit m).2
    ∃ read : List Token,
      (before.recording []).demand limit m = (result, after.recording read) ∧
      after.memory.log.reports.toList = before.memory.log.reports.toList ++ read.filterMap Token.report? ++
        (result.bind Outcome.ownReport?).toList ∧
      (∀ e, result = some (.error e) → e.kind ≠ .lexical →
        after.memory.log.count = before.memory.log.count + read.countP (·.report?.isSome) + 1 ∧
        after.memory.log.last? = some e) ∧
      ((∀ e, result = some (.error e) → e.kind = .lexical) →
        after.memory.log.count = before.memory.log.count + read.countP (·.report?.isSome)) ∧
      ∀ e, result = some (.error e) → e.kind = .lexical → after.current.report? = some e := by
  intro before result after
  obtain ⟨read, hread, hreports⟩ := exists_read_demand limit before m
  have hcount : after.memory.log.count = before.memory.log.count + read.countP (·.report?.isSome) +
      (result.bind Outcome.ownReport?).toList.length := by
    have hl := congrArg List.length hreports
    rw [List.length_append, List.length_append, List.length_filterMap_eq_countP] at hl
    exact hl
  refine ⟨read, hread, hreports, ?_, ?_, fun e => report?_current_demand⟩
  · intro e he hk
    have ho : result.bind Outcome.ownReport? = some e := by
      rw [he]
      exact Outcome.ownReport?_error hk
    have hl := congrArg List.getLast? hreports
    rw [ho, Option.toList_some, List.getLast?_concat] at hl
    refine ⟨by rw [hcount, ho]; rfl, ?_⟩
    rw [ErrorLog.last?_eq]
    exact hl
  · intro hk
    rw [hcount, Outcome.bind_ownReport?_eq_none hk]
    rfl

end Desk

end DeskCalculator
