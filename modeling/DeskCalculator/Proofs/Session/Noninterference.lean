import DeskCalculator.Proofs.Session.Frame
import DeskCalculator.Proofs.Session.Ledger

set_option autoImplicit false

namespace DeskCalculator

namespace SymbolTable

def AgreeOn (names : List String) (t t' : SymbolTable) : Prop :=
  ∀ name ∈ names, t.valueOf name = t'.valueOf name

variable {names : List String} {t t' : SymbolTable} {name : String}

theorem AgreeOn.declare (h : AgreeOn names t t') (name : String) :
    AgreeOn names (t.declare name) (t'.declare name) := by
  intro other ho
  rw [valueOf_declare, valueOf_declare]
  exact h other ho

theorem AgreeOn.assign (h : AgreeOn names t t') (ht : name ∈ t.names) (ht' : name ∈ t'.names) (x : Float) :
    AgreeOn names (t.assign name x) (t'.assign name x) := by
  intro other ho
  by_cases he : other = name
  · subst he
    rw [valueOf_assign_self x ht, valueOf_assign_self x ht']
  · rw [valueOf_assign_of_ne _ _ he, valueOf_assign_of_ne _ _ he]
    exact h other ho

theorem get?_congr (h : name ∈ t.names ↔ name ∈ t'.names) (hv : t.valueOf name = t'.valueOf name) :
    t.get? name = t'.get? name := by
  by_cases hn : name ∈ t.names
  · rw [get?_of_mem hn, get?_of_mem (h.1 hn), hv]
  · rw [get?_of_not_mem hn, get?_of_not_mem (mt h.2 hn)]

end SymbolTable

namespace Desk

variable {τ : Type} [TokenSource τ] {d d' : Desk τ Store}

theorem Proceeds.names_subset (h : d.Proceeds d') : d.memory.symbols.names ⊆ d'.memory.symbols.names := by
  induction h with
  | refl => exact List.Subset.refl _
  | @tail b c _ hs ih =>
    refine List.Subset.trans ih ?_
    cases hs with
    | declare name =>
      exact fun n hn => SymbolTable.mem_names_declare.2 (.inl hn)
    | assign name x => exact (b.memory.symbols.names_assign name x).symm ▸ List.Subset.refl _
    | advance hb => exact b.symbols_advance.symm ▸ List.Subset.refl _

theorem Declared.mem_names {name : String} (h : d.Declared name) : name ∈ d.memory.symbols.names := by
  obtain ⟨d₀, hp⟩ := h
  refine hp.names_subset ?_
  exact SymbolTable.mem_names_declare.2 (.inr rfl)

structure Indistinct (names : List String) (old old' : List Report) (d e : Desk (List Token) Store) :
    Prop where
  source : d.source = e.source
  mentioned : ∀ id, .name id ∈ d.source → id ∈ names
  agree : SymbolTable.AgreeOn names d.memory.symbols e.memory.symbols
  reports : Store.AddAlike old old' d.memory e.memory

variable {names : List String} {old old' : List Report} {d e : Desk (List Token) Store}

theorem Indistinct.advance (h : Indistinct names old old' d e) :
    Indistinct names old old' d.advance e.advance where
  source := congrArg List.tail h.source
  mentioned id hi := h.mentioned id (List.mem_of_mem_tail hi)
  agree := by
    rw [symbols_advance, symbols_advance]
    exact h.agree
  reports := by
    refine h.reports.note ?_
    rw [h.source]

theorem correspondence_indistinct (names : List String) (old old' : List Report) :
    Correspondence .none (fun a b => a = b ∧ a ∈ names) (Indistinct names old old') where
  current {d e} h := by
    have hc : e.current = d.current := congrArg Token.firstOf h.source.symm
    rw [hc]
    cases hd : d.current with
    | name id => exact .name ⟨rfl, h.mentioned id (hd ▸ current_mem_source (by rw [hd]; rfl))⟩
    | _ => exact .same (by simp [Token.kind])
  advance h _ := h.advance
  declare h hv := by
    obtain ⟨rfl, -⟩ := hv
    exact ⟨h.source, h.mentioned, h.agree.declare _, h.reports⟩
  valueOf h hv := by
    obtain ⟨rfl, hn⟩ := hv
    exact h.agree _ hn
  assign h hv hx hd he := by
    obtain ⟨rfl, -⟩ := hv
    cases hx
    exact ⟨h.source, h.mentioned, h.agree.assign hd.mem_names he.mem_names _, h.reports⟩
  fail h := ⟨h.source, h.mentioned, h.agree, h.reports.report _⟩

end Desk

namespace Session

/-- What a text does not mention is neither created nor changed. -/
theorem get?_evaluate_of_not_mem (s : Session) (text : List Char) {name : String}
    (h : name ∉ Token.names (tokenize text)) :
    (s.evaluate text).2.store.symbols.get? name = s.store.symbols.get? name := by
  have ht := through_evaluate frame_of_evaluateTokens s text
  rw [← flatMap_tokens_segments (tokenize text)] at h
  generalize (s.evaluate text).1 = os at ht
  generalize (s.evaluate text).2 = s' at ht ⊢
  generalize segments (tokenize text) = gs at ht h
  induction ht with
  | done s => rfl
  | skipped _ _ ih =>
    rw [List.flatMap_cons, Token.names, List.filterMap_append, List.mem_append, not_or] at h
    exact ih h.2
  | @answered s s₁ s' g gs o os ha hf _ ih =>
    rw [List.flatMap_cons, Token.names, List.filterMap_append, List.mem_append, not_or] at h
    obtain ⟨read, skipped, hf⟩ := hf
    have hr : name ∉ Token.names read := by
      intro hn
      refine h.1 ?_
      rw [Segment.tokens, hf.body, List.append_assoc, List.filterMap_append]
      exact List.mem_append_left _ hn
    rw [ih h.2]
    exact SymbolTable.get?_congr (hf.unread name hr).1 (hf.unread name hr).2

/-- A text that is evaluated in two sessions that agree on the names in it has the same outcomes in both and
makes the same reports. The sessions then agree on these names again, and all that bears another name is in each
of them as it was. -/
theorem evaluate_of_agreeOn {s s' : Session} (text : List Char) (hl : s.levels = s'.levels)
    (h : SymbolTable.AgreeOn (Token.names (tokenize text)) s.store.symbols s'.store.symbols) :
    let t := (s.evaluate text).2
    let t' := (s'.evaluate text).2
    (s.evaluate text).1 = (s'.evaluate text).1 ∧
      (∃ new, t.reports = s.reports ++ new ∧ t'.reports = s'.reports ++ new) ∧
      t.store.log.textFrom s.errorCount = t'.store.log.textFrom s'.errorCount ∧
      SymbolTable.AgreeOn (Token.names (tokenize text)) t.store.symbols t'.store.symbols ∧
      ∀ name ∉ Token.names (tokenize text),
        t.store.symbols.get? name = s.store.symbols.get? name ∧
          t'.store.symbols.get? name = s'.store.symbols.get? name := by
  intro t t'
  have hr : Desk.Indistinct (Token.names (tokenize text)) s.reports s'.reports
      ⟨.finish :: tokenize text, s.store⟩ ⟨.finish :: tokenize text, s'.store⟩ :=
    ⟨rfl, fun id hi => Token.mem_names.2 (by simpa using hi), h, .refl _ _⟩
  have S := Desk.correspondence_indistinct (Token.names (tokenize text)) s.reports s'.reports
  obtain ⟨ho, ts, ts', hR⟩ := agree_evaluate S (fun h => h.advance)
    (fun h => by rw [Desk.current, Desk.current, h.source]) hl hr
  have hx := hR.reports.textFrom_eq
  rw [s.length_reports, s'.length_reports] at hx
  exact ⟨ho, hR.reports, hx, hR.agree, fun name hn =>
    ⟨s.get?_evaluate_of_not_mem text hn, s'.get?_evaluate_of_not_mem text hn⟩⟩

theorem evaluate_unknown_zero :
    let s : Session := {}
    let s' := (Session.set {} "y" 0.0).set "z" 2.0
    let text := "x = y + 1; x ?".toList
    let t := (s.evaluate text).2
    let t' := (s'.evaluate text).2
    s.levels = s'.levels ∧ SymbolTable.AgreeOn ["x", "y", "x"] s.store.symbols s'.store.symbols ∧
      (s.evaluate text).1 = [.ok 1.0, .error (Cause.badToken '?').report] ∧
      (s'.evaluate text).1 = [.ok 1.0, .error (Cause.badToken '?').report] ∧
      (∃ new, t.reports = s.reports ++ new ∧ t'.reports = s'.reports ++ new) ∧
      t.store.log.textFrom s.errorCount = t'.store.log.textFrom s'.errorCount ∧
      SymbolTable.AgreeOn ["x", "y", "x"] t.store.symbols t'.store.symbols ∧
      t.store.symbols.get? "z" = none ∧ t'.store.symbols.get? "z" = some 2.0 := by
  intro s s' text t t'
  have hl : s.levels = s'.levels := rfl
  have hn : Token.names (tokenize text) = ["x", "y", "x"] := by
    set_option maxRecDepth 10000 in decide +kernel
  have hs : SymbolTable.AgreeOn ["x", "y", "x"] s.store.symbols s'.store.symbols := by
    unfold SymbolTable.AgreeOn
    decide +kernel
  have ho : (s.evaluate text).1 = [.ok 1.0, .error (Cause.badToken '?').report] := by
    set_option maxRecDepth 10000 in decide +kernel
  obtain ⟨he, hr, hx, ha, hk⟩ := evaluate_of_agreeOn text hl (hn ▸ hs)
  rw [hn] at ha hk
  obtain ⟨hz, hz'⟩ := hk "z" (by decide)
  exact ⟨hl, hs, ho, he ▸ ho, hr, hx, ha, hz.trans (by decide), hz'.trans (by decide)⟩

end Session

end DeskCalculator
