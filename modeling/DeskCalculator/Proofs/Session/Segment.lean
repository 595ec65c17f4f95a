import DeskCalculator.Proofs.Lexicon.Writing
import DeskCalculator.Proofs.Session.Tokens
import Mathlib.Data.List.Forall2
import Mathlib.Data.List.TakeWhile

/-!
Statements and the tokens they are read from. A sequence of tokens is cut behind every token that ends a
statement. Main statement: the outcomes of a text answer the pieces one after another. A piece with
something to answer has exactly one outcome, the one that its own tokens give, and another has none.
-/
set_option autoImplicit false

namespace DeskCalculator

/-- A piece of a sequence of tokens. Only its last token ends a statement, or the input does. -/
structure Segment where
  body : List Token
  ending : Option Token
  body_inner : ∀ t ∈ body, t.isBoundary = false
  ending_boundary : ∀ t ∈ ending, t.isBoundary = true

namespace Segment

def tokens (g : Segment) : List Token := g.body ++ g.ending.toList

def endsBadly (g : Segment) : Bool := g.ending.any fun t => t.report?.isSome

def isAnswered (g : Segment) : Bool := !g.body.isEmpty || g.endsBadly

def unended (ts : List Token) (h : ∀ t ∈ ts, t.isBoundary = false) : Segment where
  body := ts
  ending := none
  body_inner := h
  ending_boundary := by simp

def ended (ts : List Token) (e : Token) (h : ∀ t ∈ ts, t.isBoundary = false)
    (he : e.isBoundary = true) : Segment where
  body := ts
  ending := some e
  body_inner := h
  ending_boundary := by simp [he]

theorem isBoundary_ending (g : Segment) : (Token.firstOf g.ending.toList).isBoundary = true := by
  obtain ⟨body, ending, hi, hb⟩ := g
  cases ending with
  | none => rfl
  | some e => exact hb e rfl

theorem tail_ending_append {g : Segment} {ts : List Token} (h : g.ending = none → ts = []) :
    (g.ending.toList ++ ts).tail = ts := by
  cases he : g.ending with
  | none => simp [h he]
  | some e => rfl

theorem tail_ending (g : Segment) : g.ending.toList.tail = [] := by
  cases g.ending <;> rfl

theorem report?_ending {g : Segment} (h : g.endsBadly = false) :
    (Token.firstOf g.ending.toList).report? = none := by
  obtain ⟨body, ending, hi, hb⟩ := g
  cases ending with
  | none => rfl
  | some e => simpa [endsBadly] using h

end Segment

theorem isBoundary_of_mem_takeWhile {ts : List Token} {t : Token}
    (h : t ∈ ts.takeWhile fun t => !t.isBoundary) : t.isBoundary = false := by
  simpa using List.mem_takeWhile_imp h

theorem isBoundary_of_dropWhile {ts rest : List Token} {e : Token}
    (h : (ts.dropWhile fun t => !t.isBoundary) = e :: rest) : e.isBoundary = true := by
  have hh := List.head?_dropWhile_not (fun t : Token => !t.isBoundary) ts
  simpa [h] using hh

def segments (ts : List Token) : List Segment :=
  match _h : ts.dropWhile fun t => !t.isBoundary with
  | [] => [.unended (ts.takeWhile fun t => !t.isBoundary) fun _ => isBoundary_of_mem_takeWhile]
  | e :: rest =>
    .ended (ts.takeWhile fun t => !t.isBoundary) e (fun _ => isBoundary_of_mem_takeWhile)
      (isBoundary_of_dropWhile _h) :: segments rest
termination_by ts.length
decreasing_by
  have hl := List.length_dropWhile_le (fun t : Token => !t.isBoundary) ts
  rw [_h, List.length_cons] at hl
  omega

theorem segments_of_inner {ts : List Token} (h : ∀ t ∈ ts, t.isBoundary = false) :
    segments ts = [.unended ts h] := by
  have hd : (ts.dropWhile fun t => !t.isBoundary) = [] := by simpa using h
  have ht : (ts.takeWhile fun t => !t.isBoundary) = ts := by simpa using h
  rw [segments]
  split <;> rename_i hs <;> rw [hd] at hs
  · simp only [ht]
  · contradiction

theorem segments_append {ts : List Token} {e : Token} (h : ∀ t ∈ ts, t.isBoundary = false)
    (he : e.isBoundary = true) (rest : List Token) :
    segments (ts ++ e :: rest) = .ended ts e h he :: segments rest := by
  have hi : ∀ t ∈ ts, (!t.isBoundary) = true := by simpa using h
  have hd : ((ts ++ e :: rest).dropWhile fun t => !t.isBoundary) = e :: rest := by
    simp [List.dropWhile_append_of_pos hi, he]
  have ht : ((ts ++ e :: rest).takeWhile fun t => !t.isBoundary) = ts := by
    simp [List.takeWhile_append_of_pos hi, he]
  rw [segments]
  split <;> rename_i hs <;> rw [hd] at hs <;> cases hs
  simp only [ht]

@[elab_as_elim]
theorem segments_induction {P : List Token → Prop}
    (unended : ∀ ts, (∀ t ∈ ts, t.isBoundary = false) → P ts)
    (ended : ∀ ts e rest, (∀ t ∈ ts, t.isBoundary = false) → e.isBoundary = true → P rest →
      P (ts ++ e :: rest)) (ts : List Token) : P ts := by
  have ht := List.takeWhile_append_dropWhile (p := fun t : Token => !t.isBoundary) (l := ts)
  fun_induction segments ts with
  | case1 ts h =>
    rw [h, List.append_nil] at ht
    exact ht ▸ unended _ fun _ => isBoundary_of_mem_takeWhile
  | case2 ts e rest h ih =>
    rw [h] at ht
    exact ht ▸ ended _ e rest (fun _ => isBoundary_of_mem_takeWhile) (isBoundary_of_dropWhile h)
      (ih List.takeWhile_append_dropWhile)

theorem flatMap_tokens_segments (ts : List Token) : (segments ts).flatMap Segment.tokens = ts := by
  induction ts using segments_induction with
  | unended ts h => simp [segments_of_inner h, Segment.tokens, Segment.unended]
  | ended ts e rest h he ih => simp [segments_append h he, ih, Segment.tokens, Segment.ended]

def Segment.cons (t : Token) (ht : t.isBoundary = false) (g : Segment) : Segment where
  body := t :: g.body
  ending := g.ending
  body_inner := List.forall_mem_cons.2 ⟨ht, g.body_inner⟩
  ending_boundary := g.ending_boundary

theorem segments_cons_of_inner {t : Token} (ht : t.isBoundary = false) (ts : List Token) :
    segments (t :: ts) = (segments ts).modifyHead (Segment.cons t ht) := by
  induction ts using segments_induction with
  | unended ts h =>
    rw [segments_of_inner h, segments_of_inner (List.forall_mem_cons.2 ⟨ht, h⟩)]
    rfl
  | ended ts e rest h he _ =>
    rw [segments_append h he, ← List.cons_append,
      segments_append (List.forall_mem_cons.2 ⟨ht, h⟩) he]
    rfl

theorem segments_cons_of_boundary {e : Token} (he : e.isBoundary = true) (ts : List Token) :
    segments (e :: ts) = .ended [] e (by simp) he :: segments ts :=
  @segments_append [] e (by simp) he ts

theorem exists_append_of_segments {ts : List Token} {g : Segment} {gs : List Segment}
    (h : segments ts = g :: gs) : ∃ us, ts = g.tokens ++ us ∧ (g.ending = none → us = []) := by
  induction ts using segments_induction with
  | unended ts hi =>
    rw [segments_of_inner hi] at h
    obtain ⟨rfl, -⟩ := List.cons.inj h
    exact ⟨[], by simp [Segment.tokens, Segment.unended], fun _ => rfl⟩
  | ended ts e rest hi he _ =>
    rw [segments_append hi he] at h
    obtain ⟨rfl, -⟩ := List.cons.inj h
    exact ⟨rest, by simp [Segment.tokens, Segment.ended], by simp [Segment.ended]⟩

theorem Segment.isAnswered_eq (g : Segment) :
    g.isAnswered = g.tokens.any fun t => !t.isBoundary || t.report?.isSome := by
  have hb : (g.body.any fun t => !t.isBoundary || t.report?.isSome) = !g.body.isEmpty := by
    cases h : g.body with
    | nil => rfl
    | cons t ts => simp [g.body_inner t (h ▸ List.mem_cons_self)]
  have he : (g.ending.toList.any fun t => !t.isBoundary || t.report?.isSome) = g.endsBadly := by
    cases h : g.ending with
    | none => simp [endsBadly, h]
    | some e => simp [endsBadly, h, g.ending_boundary e h]
  rw [isAnswered, tokens, List.any_append, hb, he]

/-- The outcomes answer the segments one after another. A segment with something to answer has exactly one
outcome, which its own tokens give in the session that the segments before it leave; another has none. -/
inductive Answers : Session → List Segment → List Outcome → Session → Prop
  | done (s : Session) : Answers s [] [] s
  | skipped {s s' : Session} {g : Segment} {gs : List Segment} {os : List Outcome} :
      g.isAnswered = false → s.evaluateTokens g.tokens = ([], s) → Answers s gs os s' →
      Answers s (g :: gs) os s'
  | answered {s s₁ s' : Session} {g : Segment} {gs : List Segment} {o : Outcome} {os : List Outcome} :
      g.isAnswered = true → s.evaluateTokens g.tokens = ([o], s₁) → Answers s₁ gs os s' →
      Answers s (g :: gs) (o :: os) s'

theorem Segment.evaluateTokens_append_of_not_answered (s : Session) {g : Segment}
    (h : g.isAnswered = false) (hf : .finish ∉ g.tokens) (ts : List Token) :
    s.evaluateTokens (g.tokens ++ ts) = s.evaluateTokens ts := by
  obtain ⟨body, ending, hi, hb⟩ := g
  cases body with
  | cons t body => simp [isAnswered] at h
  | nil =>
    cases ending with
    | none => rfl
    | some e =>
      have hr : e.report? = none := by simpa [isAnswered, endsBadly] using h
      have he : e ≠ .finish := by
        intro he
        simp [tokens, he] at hf
      exact s.evaluateTokens_separator ts he (hb e rfl) hr

theorem Segment.evaluateTokens_of_not_answered (s : Session) {g : Segment}
    (h : g.isAnswered = false) (hf : .finish ∉ g.tokens) : s.evaluateTokens g.tokens = ([], s) := by
  have hs := g.evaluateTokens_append_of_not_answered s h hf []
  rwa [List.append_nil, s.evaluateTokens_nil] at hs

/-- Where there is something to answer, reading stops at the token that ends it, and what comes of it does
not depend on what follows. -/
theorem Segment.exists_nextOutcome?_eq {μ : Type} [Memory μ] (n : Nat) (m : μ) {g : Segment}
    (h : g.isAnswered = true) :
    ∃ (o : Outcome) (m' : μ),
      (∀ ts, (g.ending = none → ts = []) →
        Desk.nextOutcome? n ⟨.finish :: (g.tokens ++ ts), m⟩ =
          (some o, ⟨g.ending.toList ++ ts, m'⟩)) ∧
      (g.endsBadly = true → ∃ r, o = .error r) := by
  obtain ⟨body, ending, hi, hb⟩ := g
  cases body with
  | nil =>
    cases ending with
    | none => simp [isAnswered, endsBadly] at h
    | some e =>
      have hr : e.report?.isSome = true := by simpa [isAnswered, endsBadly] using h
      obtain ⟨r, hr⟩ := Option.isSome_iff_exists.1 hr
      exact ⟨.error r, Memory.note m e, fun ts _ => Desk.nextOutcome?_of_report hr,
        fun _ => ⟨r, rfl⟩⟩
  | cons t body =>
    cases ending with
    | none =>
      obtain ⟨o, m', hs, -⟩ := Desk.exists_statement_eq n m (e := .finish) hi rfl
      refine ⟨o, m', ?_, by simp [endsBadly]⟩
      intro ts hts
      rw [hts rfl]
      simpa [tokens] using Desk.nextOutcome?_of_statement (by simp) hi (hs [] rfl rfl)
    | some e =>
      obtain ⟨o, m', hs, hbad⟩ := Desk.exists_statement_eq n m hi (hb e rfl)
      refine ⟨o, m', ?_, by simpa [endsBadly] using hbad⟩
      intro ts _
      have ht : tokens ⟨t :: body, some e, hi, hb⟩ ++ ts = t :: body ++ e :: ts := by simp [tokens]
      rw [ht]
      exact Desk.nextOutcome?_of_statement (by simp) hi (hs (e :: ts) (hb e rfl) rfl)

/-- Tokens with something to answer have one outcome, whatever follows the token that ends them. -/
theorem Segment.exists_evaluateTokens_append (s : Session) {g : Segment} (h : g.isAnswered = true) :
    ∃ (o : Outcome) (s₁ : Session),
      s.evaluateTokens g.tokens = ([o], s₁) ∧
      (∀ ts, (g.ending = none → ts = []) →
        s.evaluateTokens (g.tokens ++ ts) =
          (o :: (s₁.evaluateTokens ts).1, (s₁.evaluateTokens ts).2)) ∧
      (g.endsBadly = true → ∃ r, o = .error r) := by
  obtain ⟨o, m', hn, hbad⟩ := g.exists_nextOutcome?_eq s.levels s.store h
  have ha : ∀ ts, (g.ending = none → ts = []) →
      s.evaluateTokens (g.tokens ++ ts) =
        (o :: ({ s with store := m' }.evaluateTokens ts).1,
          ({ s with store := m' }.evaluateTokens ts).2) := by
    intro ts hts
    rw [Session.evaluateTokens_of_some (hn ts hts), tail_ending_append hts]
  refine ⟨o, { s with store := m' }, ?_, ha, hbad⟩
  have hs := ha [] fun _ => rfl
  rwa [List.append_nil, Session.evaluateTokens_nil] at hs

theorem Segment.exists_nextOutcome?_of_evaluateTokens {s s' : Session} {g : Segment} {o : Outcome}
    (ha : g.isAnswered = true) (h : s.evaluateTokens g.tokens = ([o], s')) :
    ∃ m', Desk.nextOutcome? s.levels ⟨.finish :: g.tokens, s.store⟩ =
        (some o, ⟨g.ending.toList, m'⟩) ∧ s' = { s with store := m' } := by
  obtain ⟨o', m', hn, -⟩ := g.exists_nextOutcome?_eq s.levels s.store ha
  have hn' := hn [] (fun _ => rfl)
  rw [List.append_nil, List.append_nil] at hn'
  rw [Session.evaluateTokens_of_some hn', g.tail_ending, Session.evaluateTokens_nil] at h
  obtain ⟨ho, rfl⟩ := Prod.mk.inj h
  obtain rfl : o' = o := by simpa using ho
  exact ⟨m', hn', rfl⟩

theorem Segment.exists_statement_eq (n : Nat) (m : Store) {t : Token} (ht : t.isBoundary = false)
    {ts : List Token} {g : Segment} {gs : List Segment} (h : segments ts = g :: gs) :
    ∃ o k m', Desk.statement n ⟨t :: ts, m⟩ = (o, ⟨k, m'⟩) ∧
      Session.evaluateTokens ⟨m, n⟩ (t :: g.tokens) = ([o], ⟨m', n⟩) := by
  obtain ⟨us, rfl, hn⟩ := exists_append_of_segments h
  have hi : ∀ u ∈ t :: g.body, u.isBoundary = false := List.forall_mem_cons.2 ⟨ht, g.body_inner⟩
  obtain ⟨o, m', hs, -⟩ := Desk.exists_statement_eq n m hi g.isBoundary_ending
  have hf : Token.firstOf (g.ending.toList ++ us) = Token.firstOf g.ending.toList := by
    cases he : g.ending with
    | none => rw [hn he, List.append_nil]
    | some e => rfl
  have h₁ := hs (g.ending.toList ++ us) (hf ▸ g.isBoundary_ending) (by rw [hf])
  have h₂ := Session.evaluateTokens_statement ⟨m, n⟩ (by simp) hi
    (hs g.ending.toList g.isBoundary_ending rfl)
  rw [g.tail_ending, Session.evaluateTokens_nil] at h₂
  rw [List.cons_append, ← List.append_assoc] at h₁
  exact ⟨o, _, m', h₁, h₂⟩

theorem Answers.cons {g : Segment} {gs : List Segment} {ts : List Token} (hf : .finish ∉ g.tokens)
    (hg : g.ending = none → ts = [])
    (h : ∀ s : Session, Answers s gs (s.evaluateTokens ts).1 (s.evaluateTokens ts).2) (s : Session) :
    Answers s (g :: gs) (s.evaluateTokens (g.tokens ++ ts)).1
      (s.evaluateTokens (g.tokens ++ ts)).2 := by
  cases ha : g.isAnswered with
  | false =>
    rw [g.evaluateTokens_append_of_not_answered s ha hf ts]
    exact .skipped ha (g.evaluateTokens_of_not_answered s ha hf) (h s)
  | true =>
    obtain ⟨o, s₁, hg', hs, -⟩ := g.exists_evaluateTokens_append s ha
    rw [hs ts hg]
    exact .answered ha hg' (h s₁)

theorem answers_evaluateTokens {ts : List Token} (hf : .finish ∉ ts) (s : Session) :
    Answers s (segments ts) (s.evaluateTokens ts).1 (s.evaluateTokens ts).2 := by
  induction ts using segments_induction generalizing s with
  | unended ts h =>
    have hn : ∀ s : Session, Answers s [] (s.evaluateTokens []).1 (s.evaluateTokens []).2 := by
      intro s
      rw [s.evaluateTokens_nil]
      exact .done s
    have hg : .finish ∉ (Segment.unended ts h).tokens := by
      simpa [Segment.tokens, Segment.unended] using hf
    have hc := Answers.cons hg (fun _ => rfl) hn s
    rw [segments_of_inner h]
    simpa [Segment.tokens, Segment.unended] using hc
  | ended ts e rest h he ih =>
    simp only [List.mem_append, List.mem_cons, not_or] at hf
    have hg : .finish ∉ (Segment.ended ts e h he).tokens := by
      simp [Segment.tokens, Segment.ended, hf.1, hf.2.1]
    have hc := Answers.cons hg (by simp [Segment.ended]) (ih hf.2.2) s
    rw [segments_append h he]
    simpa [Segment.tokens, Segment.ended] using hc

theorem answers_tokenize (s : Session) (text : List Char) :
    Answers s (segments (tokenize text)) (s.evaluate text).1 (s.evaluate text).2 := by
  rw [s.evaluate_eq_evaluateTokens]
  exact answers_evaluateTokens (Lexer.finish_not_mem_tokens (.ofText text)) s

theorem Answers.forall₂ {s s' : Session} {gs : List Segment} {os : List Outcome}
    (h : Answers s gs os s') :
    List.Forall₂ (fun g o => g.endsBadly = true → ∃ r, o = .error r)
      (gs.filter Segment.isAnswered) os := by
  induction h with
  | done s => exact .nil
  | skipped ha _ _ ih => simpa [ha] using ih
  | @answered s s₁ s' g gs o os ha he _ ih =>
    obtain ⟨o', s₂, hg, -, hb⟩ := g.exists_evaluateTokens_append s ha
    rw [he] at hg
    obtain rfl : o = o' := by simpa using congrArg Prod.fst hg
    simpa [ha] using ⟨hb, ih⟩

/-- The segments with something to answer are answered one after another, and the property holds of each of them
in the session that it is answered in. -/
inductive Through (R : Session → Segment → Outcome → Session → Prop) :
    Session → List Segment → List Outcome → Session → Prop
  | done (s : Session) : Through R s [] [] s
  | skipped {s s' : Session} {g : Segment} {gs : List Segment} {os : List Outcome} :
      g.isAnswered = false → Through R s gs os s' → Through R s (g :: gs) os s'
  | answered {s s₁ s' : Session} {g : Segment} {gs : List Segment} {o : Outcome} {os : List Outcome} :
      g.isAnswered = true → R s g o s₁ → Through R s₁ gs os s' → Through R s (g :: gs) (o :: os) s'

theorem Answers.through {R : Session → Segment → Outcome → Session → Prop}
    (hR : ∀ {s g o s'}, g.isAnswered = true → s.evaluateTokens g.tokens = ([o], s') → R s g o s')
    {s s' : Session} {gs : List Segment} {os : List Outcome} (h : Answers s gs os s') :
    Through R s gs os s' := by
  induction h with
  | done s => exact .done s
  | skipped ha _ _ ih => exact .skipped ha ih
  | answered ha he _ ih => exact .answered ha (hR ha he) ih

theorem through_evaluate {R : Session → Segment → Outcome → Session → Prop}
    (hR : ∀ {s g o s'}, g.isAnswered = true → s.evaluateTokens g.tokens = ([o], s') → R s g o s')
    (s : Session) (text : List Char) :
    Through R s (segments (tokenize text)) (s.evaluate text).1 (s.evaluate text).2 :=
  (answers_tokenize s text).through hR

/-- The outcomes of a text correspond in order to the segments of its tokens with something to answer,
and a segment that ends badly has failed. -/
theorem answers_evaluate (s : Session) (text : List Char) :
    (segments (tokenize text)).flatMap Segment.tokens = tokenize text ∧
      Answers s (segments (tokenize text)) (s.evaluate text).1 (s.evaluate text).2 ∧
      List.Forall₂ (fun g o => g.endsBadly = true → ∃ r, o = .error r)
        ((segments (tokenize text)).filter Segment.isAnswered) (s.evaluate text).1 := by
  rw [s.evaluate_eq_evaluateTokens]
  have ha := answers_evaluateTokens (Lexer.finish_not_mem_tokens (.ofText text)) s
  exact ⟨flatMap_tokens_segments _, ha, ha.forall₂⟩

theorem tokenize_name_point : tokenize "x .".toList = [.name "x"] ++ [.invalid '.'] := by
  have hw : Writing.Lexical (.piece [] ['x'] (.piece [' '] ['.'] (.last [])))
      [.name "x", .invalid '.'] := by
    refine .piece (by simp) (by decide) (@Token.Stands.name _ _ 'x' [] (by decide) (by simp) ?_
      ⟨rfl, by decide, rfl, rfl⟩) ?_
    · exact notNext_cons.2 (by decide +kernel)
    refine .piece isGap_of_mem_space (by decide) (.badNumber (notNext_nil _) ⟨rfl, by decide, rfl, rfl⟩) ?_
    exact .last (by simp)
  exact hw.tokenize_eq

def namePoint : Segment :=
  .ended [.name "x"] (.invalid '.') (List.forall_mem_singleton.2 rfl) rfl

theorem evaluate_name_point :
    (Session.evaluate {} "x .".toList).1 = [.error Cause.badNumber.report] ∧
      Answers {} [namePoint, .unended [] (by simp)] [.error Cause.badNumber.report]
        (Session.evaluate {} "x .".toList).2 ∧ namePoint.endsBadly = true := by
  have hs : segments (tokenize "x .".toList) = [namePoint, .unended [] (by simp)] := by
    rw [tokenize_name_point, segments_append (List.forall_mem_singleton.2 rfl) rfl [], segments_of_inner (by simp)]
    rfl
  have ho : (Session.evaluate {} "x .".toList).1 = [.error Cause.badNumber.report] := by
    set_option maxRecDepth 10000 in decide +kernel
  obtain ⟨-, ha, -⟩ := answers_evaluate {} "x .".toList
  rw [hs, ho] at ha
  exact ⟨ho, ha, rfl⟩

end DeskCalculator
