import DeskCalculator.Proofs.Attempt.Session
import DeskCalculator.Proofs.Session.Tokens

/-!
Texts read to their end. Main statement: after finitely many outcomes there is none, and by then every token of the
text has been delivered once and in order, whoever read it. Behind the last the end has been delivered once, and once
more where a statement ran up to it.
-/
set_option autoImplicit false

namespace DeskCalculator

/-- Asking again and again gives the values, and then none. -/
inductive Exhausts {σ α : Type} (next : σ → Option α × σ) : σ → List α → σ → Prop
  | nil {s s' : σ} : next s = (none, s') → Exhausts next s [] s'
  | cons {s s₁ s' : σ} {a : α} {as : List α} : next s = (some a, s₁) → Exhausts next s₁ as s' →
      Exhausts next s (a :: as) s'

/-- A source, and the tokens that it has delivered when it was moved on. -/
structure Recorded (τ : Type) where
  source : τ
  delivered : List Token := []

instance {τ : Type} [TokenSource τ] : TokenSource (Recorded τ) where
  current s := TokenSource.current s.source
  advance s :=
    { source := TokenSource.advance s.source
      delivered := s.delivered ++ [TokenSource.current (TokenSource.advance s.source)] }
  rest s := TokenSource.rest s.source
  rest_advance_le s := TokenSource.rest_advance_le s.source
  rest_advance_lt s := TokenSource.rest_advance_lt s.source

/-- Where steps correspond, so do the runs that they make. -/
theorem Exhausts.map {σ σ' α : Type} {next : σ → Option α × σ} {next' : σ' → Option α × σ'} (f : σ → σ')
    (hf : ∀ s, next' (f s) = Prod.map id f (next s)) {s t : σ} {as : List α} (h : Exhausts next s as t) :
    Exhausts next' (f s) as (f t) := by
  induction h with
  | nil hn => exact .nil (by rw [hf, hn]; rfl)
  | cons hn _ ih => exact .cons (by rw [hf, hn]; rfl) ih

section
variable {τ μ : Type} [TokenSource τ]

def Records (d : Desk (Recorded τ) μ) (e : Desk τ μ) : Prop :=
  d.source.source = e.source ∧ d.memory = e.memory

theorem Records.current_eq {d : Desk (Recorded τ) μ} {e : Desk τ μ} (h : Records d e) :
    d.current = e.current :=
  congrArg TokenSource.current h.1

variable [Memory μ]

theorem Records.advance {d : Desk (Recorded τ) μ} {e : Desk τ μ} (h : Records d e) :
    Records d.advance e.advance := by
  refine ⟨congrArg TokenSource.advance h.1, ?_⟩
  change Memory.note d.memory (TokenSource.current (TokenSource.advance d.source.source)) = _
  rw [h.1, h.2]
  rfl

theorem simulation_records : Simulation Eq (Records (τ := τ) (μ := μ)) where
  current h := h.current_eq ▸ .refl _
  advance h _ := h.advance
  declare h hv := ⟨h.1, by simp [Desk.declare, h.2, hv]⟩
  valueOf h hv := by simp [Desk.valueOf, h.2, hv]
  assign h hv := ⟨h.1, by simp [Desk.assign, h.2, hv]⟩
  fail h := ⟨h.1, by simp [Desk.fail, h.2]⟩

theorem Desk.exhausts_outcomes (n : Nat) (d : Desk τ μ) :
    Exhausts (nextOutcome? n) d (outcomes n d).1 (outcomes n d).2 := by
  fun_induction outcomes n d with
  | case1 d d' h => exact .nil h
  | case2 d o d' h others ih => exact .cons h ih

theorem Desk.length_le_rest {n : Nat} {d d' : Desk τ μ} {os : List Outcome}
    (h : Exhausts (nextOutcome? n) d os d') : os.length ≤ TokenSource.rest d.source := by
  induction h with
  | nil _ => exact Nat.zero_le _
  | cons hn _ ih => exact Nat.succ_le_of_lt (Nat.lt_of_le_of_lt ih (rest_nextOutcome?_lt hn))

end

def Token.endOpen (ts : List Token) : Bool := ts.getLast?.any fun t => !t.isBoundary

namespace Recorded

variable {ts : List Token} {s t : Recorded TokenStream}

open TokenSource (Reaches)

structure Within (ts : List Token) (s : Recorded TokenStream) : Prop where
  eq_append : ts = s.delivered ++ Lexer.tokens s.source.reader
  current : s.source.current = s.delivered.getLast?.getD .finish

structure AtEnd (ts : List Token) (s : Recorded TokenStream) : Prop where
  delivered : s.delivered = ts ++ [.finish]
  current : s.source.current = .finish
  pending : s.source.reader.pending = []

inductive Rests (ts : List Token) (s : Recorded TokenStream) : Prop
  | within : Within ts s → s.source.current.isBoundary = true → Rests ts s
  | atEnd : AtEnd ts s → Token.endOpen ts = true → Rests ts s

theorem within_ofText (text : List Char) : Within (tokenize text) { source := .ofText text } where
  eq_append := rfl
  current := rfl

theorem current_advance (s : Recorded TokenStream) :
    TokenSource.current (TokenSource.advance s) = (Lexer.scan s.source.reader).1 := rfl

theorem delivered_advance (s : Recorded TokenStream) :
    (TokenSource.advance s).delivered = s.delivered ++ [(Lexer.scan s.source.reader).1] := rfl

theorem Within.delivered_eq (h : Within ts s) (hf : (Lexer.scan s.source.reader).1 = .finish) :
    s.delivered = ts := by
  have ht : Lexer.tokens s.source.reader = [] := by rw [Lexer.tokens, dif_pos hf]
  rw [h.eq_append, ht, List.append_nil]

theorem Within.atEnd_advance (h : Within ts s) (hf : (Lexer.scan s.source.reader).1 = .finish) :
    AtEnd ts (TokenSource.advance s) where
  delivered := by rw [delivered_advance, hf, h.delivered_eq hf]
  current := hf
  pending := Lexer.pending_of_scan_finish hf

theorem Within.advance (h : Within ts s) (hf : (Lexer.scan s.source.reader).1 ≠ .finish) :
    Within ts (TokenSource.advance s) where
  eq_append := by
    have ht : Lexer.tokens s.source.reader =
        (Lexer.scan s.source.reader).1 :: Lexer.tokens (Lexer.scan s.source.reader).2 := by
      rw [Lexer.tokens, dif_neg hf]
    rw [delivered_advance, List.append_assoc, List.singleton_append]
    exact ht ▸ h.eq_append
  current := by
    rw [delivered_advance, List.getLast?_concat]
    rfl

theorem AtEnd.scan_eq (h : AtEnd ts s) : (Lexer.scan s.source.reader).1 = .finish :=
  Lexer.scan_eq_finish_iff.2 (by simp [h.pending])

/-- A statement stops before its end, and before the end of the text only if it runs up to it. -/
theorem Within.of_reaches (h : Within ts s) (hr : Reaches s t) :
    Within ts t ∨ AtEnd ts t ∧ Token.endOpen ts = true := by
  induction hr with
  | refl => exact .inl h
  | @step s t hb hr ih =>
    by_cases hf : (Lexer.scan s.source.reader).1 = .finish
    · obtain rfl := hr.eq_of_boundary (by rw [current_advance, hf]; rfl)
      refine .inr ⟨h.atEnd_advance hf, ?_⟩
      have hc : s.source.current.isBoundary = false := hb
      rw [h.current, h.delivered_eq hf] at hc
      cases hl : ts.getLast? with
      | none => rw [hl] at hc; contradiction
      | some u => rw [hl] at hc; simp [Token.endOpen, hl, show u.isBoundary = false from hc]
    · exact ih (h.advance hf)

theorem Rests.advance (h : Rests ts s) (hf : (Lexer.scan s.source.reader).1 ≠ .finish) :
    Within ts (TokenSource.advance s) := by
  cases h with
  | within hw _ => exact hw.advance hf
  | atEnd he _ => exact absurd he.scan_eq hf

/-- When the end is delivered where nothing is left, it is for the second time if it was a statement that had run up
to it. -/
theorem Rests.delivered_advance_of_finish (h : Rests ts s)
    (hf : (Lexer.scan s.source.reader).1 = .finish) :
    (TokenSource.advance s).delivered =
      ts ++ .finish :: if Token.endOpen ts then [.finish] else [] := by
  rw [delivered_advance, hf]
  cases h with
  | within hw hb =>
    have hn : Token.endOpen ts = false := by
      rw [hw.current, hw.delivered_eq hf] at hb
      cases hl : ts.getLast? with
      | none => simp [Token.endOpen, hl]
      | some u => simp [Token.endOpen, hl, show u.isBoundary = true by simpa [hl] using hb]
    rw [hw.delivered_eq hf, hn]
    rfl
  | atEnd he ho =>
    rw [he.delivered, ho]
    simp

end Recorded

namespace Desk

variable {μ : Type} [Memory μ] {n : Nat} {ts : List Token} {d d' : Desk (Recorded TokenStream) μ}

theorem rests_nextOutcome? {o : Outcome} (h : d.source.Rests ts)
    (hn : nextOutcome? n d = (some o, d')) : d'.source.Rests ts := by
  fun_induction nextOutcome? n d with
  | case1 d e hf => simp at hn
  | case2 d e hf r hr =>
    rw [← (Prod.mk.inj hn).2]
    exact .within (h.advance hf) (Token.isBoundary_of_report? hr)
  | case3 d e hf hr hb ih => exact ih (.within (h.advance hf) hb) hn
  | case4 d e hf hr hb out =>
    rw [← (Prod.mk.inj hn).2]
    have he := isBoundary_statement n e
    obtain hw | ⟨ha, ho⟩ := (h.advance hf).of_reaches (reaches_statement n e)
    · exact .within hw he
    · exact .atEnd ha ho

theorem delivered_nextOutcome?_of_none (h : d.source.Rests ts) (hn : nextOutcome? n d = (none, d')) :
    d'.source.delivered = ts ++ .finish :: if Token.endOpen ts then [.finish] else [] := by
  fun_induction nextOutcome? n d with
  | case1 d e hf =>
    rw [← (Prod.mk.inj hn).2]
    exact h.delivered_advance_of_finish hf
  | case2 d e hf r hr => simp at hn
  | case3 d e hf hr hb ih => exact ih (.within (h.advance hf) hb) hn
  | case4 d e hf hr hb out => simp at hn

theorem delivered_of_exhausts {os : List Outcome} (hx : Exhausts (nextOutcome? n) d os d')
    (h : d.source.Rests ts) :
    d'.source.delivered = ts ++ .finish :: if Token.endOpen ts then [.finish] else [] := by
  induction hx with
  | nil hn => exact delivered_nextOutcome?_of_none h hn
  | cons hn _ ih => exact ih (rests_nextOutcome? h hn)

end Desk

namespace Session

theorem exhausts_next (s : Session) {text : List Char} {d : Desk TokenStream Store} {os : List Outcome}
    (h : Exhausts (Desk.nextOutcome? s.levels) ⟨.ofText text, s.store⟩ os d) :
    Exhausts (fun p : TokenStream × Session => p.2.next p.1) (.ofText text, s) os
      (d.source, { s with store := d.memory }) :=
  h.map (fun e : Desk TokenStream Store => (e.source, { s with store := e.memory })) fun _ => rfl

/-- Every text comes to its end. What asking for outcomes gives until there is none is what the session evaluates
the text to: no loop of it has stood still, and there are no more outcomes than characters. All in all the source
has delivered the tokens of the text, each once and in order, and the end behind them, twice if the text breaks off
within a statement. -/
theorem exhausts_evaluate (s : Session) (text : List Char) :
    s.attemptEvaluate text = pure (s.evaluate text) ∧
      (s.evaluate text).1.length ≤ text.length ∧
      ∃ st : Recorded TokenStream,
        Exhausts (fun p : TokenStream × Session => p.2.next p.1) (.ofText text, s) (s.evaluate text).1
          (st.source, (s.evaluate text).2) ∧
        Exhausts (Desk.nextOutcome? s.levels) ⟨{ source := .ofText text }, s.store⟩ (s.evaluate text).1
          ⟨st, (s.evaluate text).2.store⟩ ∧
        st.delivered =
          tokenize text ++ .finish :: if Token.endOpen (tokenize text) then [.finish] else [] := by
  let d : Desk (Recorded TokenStream) Store := ⟨{ source := .ofText text }, s.store⟩
  let e : Desk TokenStream Store := ⟨.ofText text, s.store⟩
  have hR : Records d e := ⟨rfl, rfl⟩
  obtain ⟨os, d', e', hd, he, hR'⟩ := (simulation_records.agree_outcomes (fun h => h.advance)
    (fun h => by rw [h.current_eq]) s.levels hR).eq_mk
  have hev : s.evaluate text = (os, { s with store := e'.memory }) := by
    simp only [evaluate, e, he]
  have hxd := Desk.exhausts_outcomes s.levels d
  have hxe := Desk.exhausts_outcomes s.levels e
  rw [hd] at hxd
  rw [he] at hxe
  have hloose : (⟨.ofText text, ⟨.finish, "", none, none⟩, s.store⟩ : LooseDesk) = e.loose := rfl
  refine ⟨?_, ?_, d'.source, ?_, ?_, ?_⟩
  · rw [attemptEvaluate, hloose, LooseDesk.outcomes_loose, pure_bind]
    rfl
  · rw [hev]
    exact Desk.length_le_rest hxe
  · rw [hev, hR'.1]
    exact s.exhausts_next hxe
  · rw [hev, ← hR'.2]
    exact hxd
  · exact Desk.delivered_of_exhausts hxd (.within (Recorded.within_ofText text) rfl)

end Session

end DeskCalculator
