import DeskCalculator.Proofs.Evaluation.Simulation
import DeskCalculator.Proofs.Source.Sequence
import DeskCalculator.Session

set_option autoImplicit false

namespace DeskCalculator

section
variable {μ : Type}

def DeliversAlike (d : Desk TokenStream μ) (e : Desk (List Token) μ) : Prop :=
  d.source.Delivers e.source ∧ d.memory = e.memory

theorem DeliversAlike.current_eq {d : Desk TokenStream μ} {e : Desk (List Token) μ}
    (h : DeliversAlike d e) : d.current = e.current := h.1.1

variable [Memory μ]

theorem Memory.note_congr {m : μ} {t u : Token} (h : t.report? = u.report?) :
    Memory.note m t = Memory.note m u := by
  simp only [note, h]

theorem Memory.note_of_report?_none {m : μ} {t : Token} (h : t.report? = none) :
    Memory.note m t = m := by
  simp only [note, h]

theorem DeliversAlike.advance {d : Desk TokenStream μ} {e : Desk (List Token) μ}
    (h : DeliversAlike d e) : DeliversAlike d.advance e.advance := by
  have hs := h.1.advance
  refine ⟨hs, ?_⟩
  change Memory.note d.memory d.source.advance.current = Memory.note e.memory _
  rw [h.2, hs.1]
  rfl

theorem simulation_deliversAlike : Simulation Eq (DeliversAlike (μ := μ)) where
  current h := h.current_eq ▸ .refl _
  advance h _ := h.advance
  declare h hv := ⟨h.1, by simp [Desk.declare, h.2, hv]⟩
  valueOf h hv := by simp [Desk.valueOf, h.2, hv]
  assign h hv := ⟨h.1, by simp [Desk.assign, h.2, hv]⟩
  fail h := ⟨h.1, by simp [Desk.fail, h.2]⟩

def AlikeUpTo (k k' : List Token) (d e : Desk (List Token) μ) : Prop :=
  ∃ ts m, d = ⟨ts ++ k, m⟩ ∧ e = ⟨ts ++ k', m⟩

theorem simulation_alikeUpTo {k k' : List Token} (hk : (Token.firstOf k).isBoundary = true)
    (hk' : (Token.firstOf k').isBoundary = true)
    (hr : (Token.firstOf k).report? = (Token.firstOf k').report?) :
    Simulation Eq (AlikeUpTo (μ := μ) k k') where
  current := by
    intro d e h
    obtain ⟨ts, m, rfl, rfl⟩ := h
    cases ts with
    | nil => exact .boundary hk hk' hr
    | cons t ts => exact .refl t
  advance := by
    intro d e h hb
    obtain ⟨ts, m, rfl, rfl⟩ := h
    cases ts with
    | nil =>
      rw [Desk.current_mk, List.nil_append, hk] at hb
      contradiction
    | cons t ts =>
      have hm : Memory.note m (Token.firstOf (ts ++ k)) =
          Memory.note m (Token.firstOf (ts ++ k')) := by
        cases ts with
        | nil => exact Memory.note_congr hr
        | cons u us => rfl
      exact ⟨ts, Memory.note m (Token.firstOf (ts ++ k')), by simp [hm], rfl⟩
  declare := by
    intro d e a b h hv
    obtain ⟨ts, m, rfl, rfl⟩ := h
    subst hv
    exact ⟨ts, Memory.declare m a, rfl, rfl⟩
  valueOf := by
    intro d e a b h hv
    obtain ⟨ts, m, rfl, rfl⟩ := h
    subst hv
    rfl
  assign := by
    intro d e a b x h hv
    obtain ⟨ts, m, rfl, rfl⟩ := h
    subst hv
    exact ⟨ts, Memory.assign m a x, rfl, rfl⟩
  fail := by
    intro d e c h
    obtain ⟨ts, m, rfl, rfl⟩ := h
    exact ⟨ts, Memory.report m c.report, rfl, rfl⟩

theorem Desk.source_statement (n : Nat) {ts k : List Token} (hts : ∀ t ∈ ts, t.isBoundary = false)
    (hk : (Token.firstOf k).isBoundary = true) (m : μ) :
    (Desk.statement n ⟨ts ++ k, m⟩).2.source = k := by
  obtain ⟨vs, hv, hs⟩ := (Desk.reaches_statement n ⟨ts ++ k, m⟩).eq_append hk
  have hb := Desk.isBoundary_statement n ⟨ts ++ k, m⟩
  change (Token.firstOf (Desk.statement n ⟨ts ++ k, m⟩).2.source).isBoundary = true at hb
  rw [hv] at hb ⊢
  cases vs with
  | nil => rfl
  | cons v vs =>
    have hv := hts v (hs.subset List.mem_cons_self)
    rw [List.cons_append, Token.firstOf_cons, hv] at hb
    contradiction

/-- What a statement comes to depends on its own tokens and on the report of the token that ends it. -/
theorem Desk.exists_statement_eq (n : Nat) (m : μ) {ts : List Token} {e : Token}
    (hts : ∀ t ∈ ts, t.isBoundary = false) (he : e.isBoundary = true) :
    ∃ o m', (∀ k, (Token.firstOf k).isBoundary = true → (Token.firstOf k).report? = e.report? →
        Desk.statement n ⟨ts ++ k, m⟩ = (o, ⟨k, m'⟩)) ∧
      (e.report?.isSome = true → ∃ r, o = .error r) := by
  have hs := Desk.source_statement n (k := [e]) hts he m
  cases h : Desk.statement n ⟨ts ++ [e], m⟩ with
  | mk o d =>
    rw [h] at hs
    refine ⟨o, d.memory, ?_, ?_⟩
    · intro k hk hr
      -- The report of the ending is all that a statement looks at behind its own tokens.
      have S : Simulation Eq (AlikeUpTo (μ := μ) k [e]) := simulation_alikeUpTo hk he hr
      have ha := S.agree_statement n (d := ⟨ts ++ k, m⟩) (e := ⟨ts ++ [e], m⟩) ⟨ts, m, rfl, rfl⟩
      obtain ⟨o', d₁, e₁, h₁, h₂, vs, m', rfl, rfl⟩ := ha.eq_mk
      cases h.symm.trans h₂
      have hk' := Desk.source_statement n hts hk m
      rw [h₁] at hk' ⊢
      simp only at hk' ⊢
      rw [hk']
    · intro hr
      cases o with
      | error r => exact ⟨r, rfl⟩
      | ok x =>
        have hn := (Desk.run_of_statement_eq_ok h).2.1
        change (Token.firstOf d.source).report? = none at hn
        rw [hs, Token.firstOf_cons] at hn
        simp [hn] at hr

theorem Desk.nextOutcome?_of_statement {n : Nat} {m m' : μ} {ts k : List Token} (hn : ts ≠ [])
    (hts : ∀ t ∈ ts, t.isBoundary = false) {o : Outcome}
    (h : Desk.statement n ⟨ts ++ k, m⟩ = (o, ⟨k, m'⟩)) :
    Desk.nextOutcome? n ⟨.finish :: (ts ++ k), m⟩ = (some o, ⟨k, m'⟩) := by
  cases ts with
  | nil => exact absurd rfl hn
  | cons t ts =>
    have ht := hts t List.mem_cons_self
    have ha : Desk.advance ⟨.finish :: (t :: ts ++ k), m⟩ = ⟨t :: ts ++ k, m⟩ := by
      simp [Memory.note_of_report?_none (Token.report?_of_not_boundary ht)]
    rw [Desk.nextOutcome?_of_inner (ha ▸ ht), ha, h]

end

namespace Session

def evaluateTokens (s : Session) (ts : List Token) : List Outcome × Session :=
  let run := Desk.outcomes s.levels { source := .finish :: ts, memory := s.store }
  (run.1, { s with store := run.2.memory })

theorem evaluate_eq_evaluateTokens (s : Session) (text : List Char) :
    s.evaluate text = s.evaluateTokens (tokenize text) := by
  have h := simulation_deliversAlike.agree_outcomes (fun h => h.advance)
    (fun h => by rw [h.current_eq]) s.levels
    (d := { source := TokenStream.ofText text, memory := s.store })
    (e := { source := .finish :: tokenize text, memory := s.store })
    ⟨TokenStream.delivers_ofText text, rfl⟩
  obtain ⟨o, d, e, h₁, h₂, hR⟩ := h.eq_mk
  simp only [evaluate, evaluateTokens, h₁, h₂, hR.2]

theorem agree_evaluate {V : String → String → Prop}
    {R : Desk (List Token) Store → Desk (List Token) Store → Prop} (S : Correspondence .none V R)
    (hn : ∀ {d e}, R d e → R d.advance e.advance)
    (hf : ∀ {d e}, R d e → (d.current = .finish ↔ e.current = .finish)) {s s' : Session}
    (hl : s.levels = s'.levels) {text text' : List Char}
    (h : R ⟨.finish :: tokenize text, s.store⟩ ⟨.finish :: tokenize text', s'.store⟩) :
    (s.evaluate text).1 = (s'.evaluate text').1 ∧
      ∃ ts ts', R ⟨ts, (s.evaluate text).2.store⟩ ⟨ts', (s'.evaluate text').2.store⟩ := by
  obtain ⟨ho, hR⟩ := S.agree_outcomes s.levels hn hf h
  rw [s.evaluate_eq_evaluateTokens, s'.evaluate_eq_evaluateTokens, evaluateTokens, evaluateTokens, ← hl]
  exact ⟨ho, _, _, hR⟩

theorem evaluateTokens_of_some {s : Session} {ts k : List Token} {o : Outcome} {m : Store}
    (h : Desk.nextOutcome? s.levels ⟨.finish :: ts, s.store⟩ = (some o, ⟨k, m⟩)) :
    s.evaluateTokens ts =
      (o :: ({ s with store := m }.evaluateTokens k.tail).1,
        ({ s with store := m }.evaluateTokens k.tail).2) := by
  have hc : Desk.outcomes s.levels ⟨k, m⟩ = Desk.outcomes s.levels ⟨.finish :: k.tail, m⟩ :=
    Desk.outcomes_congr (Desk.nextOutcome?_congr rfl)
  simp only [evaluateTokens, Desk.outcomes_of_some h, hc]

theorem evaluateTokens_nil (s : Session) : s.evaluateTokens [] = ([], s) := by
  have hn : Desk.nextOutcome? s.levels ⟨[Token.finish], s.store⟩ = (none, ⟨[], s.store⟩) :=
    Desk.nextOutcome?_of_finish rfl
  simp only [evaluateTokens, Desk.outcomes_of_none hn]

theorem evaluateTokens_separator (s : Session) {e : Token} (ts : List Token) (hf : e ≠ .finish)
    (hb : e.isBoundary = true) (hr : e.report? = none) :
    s.evaluateTokens (e :: ts) = s.evaluateTokens ts := by
  have hn : Desk.nextOutcome? s.levels ⟨.finish :: e :: ts, s.store⟩ =
      Desk.nextOutcome? s.levels (Desk.advance ⟨.finish :: e :: ts, s.store⟩) :=
    Desk.nextOutcome?_of_separator hf hb hr
  have ha : Desk.advance ⟨.finish :: e :: ts, s.store⟩ = ⟨e :: ts, s.store⟩ := by
    simp [Memory.note_of_report?_none hr]
  have hc : Desk.nextOutcome? s.levels ⟨e :: ts, s.store⟩ =
      Desk.nextOutcome? s.levels ⟨.finish :: ts, s.store⟩ := Desk.nextOutcome?_congr rfl
  have ho := Desk.outcomes_congr (hn.trans (ha ▸ hc))
  simp only [evaluateTokens, ho]

theorem evaluateTokens_statement (s : Session) {ts k : List Token} (hn : ts ≠ [])
    (hts : ∀ t ∈ ts, t.isBoundary = false) {o : Outcome} {m : Store}
    (h : Desk.statement s.levels ⟨ts ++ k, s.store⟩ = (o, ⟨k, m⟩)) :
    s.evaluateTokens (ts ++ k) =
      (o :: ({ s with store := m }.evaluateTokens k.tail).1,
        ({ s with store := m }.evaluateTokens k.tail).2) :=
  evaluateTokens_of_some (Desk.nextOutcome?_of_statement hn hts h)

end Session

end DeskCalculator
