import DeskCalculator.Proofs.Lexicon.ReadAhead
import DeskCalculator.Proofs.Session.Piece
import Mathlib.Data.List.Induction

set_option autoImplicit false

namespace DeskCalculator

theorem Token.looksAhead_of_isBoundary {t : Token} (h : t.isBoundary = true) :
    t.looksAhead = true ↔ t = .invalid '.' := by
  cases t <;> simp [looksAhead, isBoundary, kind] at h ⊢

namespace Lexer.Leaves

variable {r r' : Reader} {t : Token}

theorem scan (h : Leaves r t r') : Leaves r (Lexer.scan r').1 (Lexer.scan r').2 where
  extent := (leaves_scan r').extent.trans h.extent
  held := (leaves_scan r').held

theorem of_reaches {s t : TokenStream} (h : Leaves r s.current s.reader) (hr : TokenSource.Reaches s t) :
    Leaves r t.current t.reader := by
  induction hr with
  | refl => exact h
  | step _ _ ih => exact ih h.scan

theorem nextOutcome? (n : Nat) {d : Desk TokenStream Store}
    (h : Leaves r d.source.current d.source.reader) :
    Leaves r (Desk.nextOutcome? n d).2.source.current (Desk.nextOutcome? n d).2.source.reader := by
  fun_induction Desk.nextOutcome? n d with
  | case1 d e hf => exact h.scan
  | case2 d e hf r hr => exact h.scan
  | case3 d e hf hr hb ih => exact ih h.scan
  | case4 d e hf hr hb out => exact of_reaches h.scan (Desk.reaches_statement n e)

variable {text : List Char} {st : TokenStream}

theorem taken_of_finish (h : Lexer.Leaves (.ofText text) st.current st.reader) (hf : st.current = .finish)
    (hn : st.reader.pending = []) : st.taken = text.length := by
  have ht := h.taken_add_pending
  rw [hf, hn, Reader.extent_ofText] at ht
  simpa [Token.looksAhead, TokenStream.taken] using ht

theorem taken_of_isBoundary {read : List Char} (h : Lexer.Leaves (.ofText text) st.current st.reader)
    (hb : st.current.isBoundary = true) (ht : text = read ++ st.reader.pending) :
    st.taken =
      read.length + if st.current = .invalid '.' ∧ st.reader.pending ≠ [] then 1 else 0 := by
  have hl := congrArg List.length ht
  have hx := h.taken_add_pending
  rw [Reader.extent_ofText] at hx
  simp only [Token.looksAhead_of_isBoundary hb] at hx
  rw [List.length_append] at hl
  unfold TokenStream.taken
  omega

end Lexer.Leaves

def TokenStream.after (st : TokenStream) (ss : List Session) : TokenStream :=
  ss.foldl (fun st s => (s.next st).2.1) st

theorem TokenStream.after_append_singleton (st : TokenStream) (ss : List Session) (s : Session) :
    st.after (ss ++ [s]) = (s.next (st.after ss)).2.1 :=
  List.foldl_append

/-- How many characters of the text have been read when the outcome is given that so many others came before. -/
inductive AnsweredAt (text : List Char) (s : Session) (k : Nat) : Option Outcome → Nat → Prop
  | ended {before after : List (List Char)} {p : List Char} {t : Token} {o : Outcome} :
      pieces text = before ++ p :: after → (before.filter holdsStatement).length = k →
      holdsStatement p = true → (s.evaluate p).1 = [o] →
      (tokenize p).getLast? = some t → t.isBoundary = true → t.lexeme.toList <:+ p →
      AnsweredAt text s k (some o)
        ((before.flatten ++ p).length + if t = .invalid '.' ∧ after.flatten ≠ [] then 1 else 0)
  | unended {before : List (List Char)} {p : List Char} {o : Outcome} :
      pieces text = before ++ [p] → (before.filter holdsStatement).length = k →
      holdsStatement p = true → (s.evaluate p).1 = [o] → (∀ t ∈ tokenize p, t.isBoundary = false) →
      AnsweredAt text s k (some o) text.length
  | exhausted : (statements text).length ≤ k → AnsweredAt text s k none text.length

/-- The pieces that so many statements are among have been read, and what stands behind the current token has not,
but for the character that it looks ahead at. -/
structure Passed (text : List Char) (k : Nat) (st : TokenStream) : Prop where
  leaves : Lexer.Leaves (.ofText text) st.current st.reader
  rest : (∃ before, pieces text = before ++ pieces st.reader.pending ∧
      (before.filter holdsStatement).length = k) ∨
    st.reader.pending = [] ∧ (statements text).length ≤ k

namespace Passed

variable {text : List Char} {k : Nat} {st st' : TokenStream}

theorem ofText (text : List Char) : Passed text 0 (.ofText text) where
  leaves := ⟨rfl, rfl⟩
  rest := .inl ⟨[], rfl, rfl⟩

section
variable {before after : List (List Char)} {p : List Char} (hs : pieces text = before ++ p :: after)
  (hk : (before.filter holdsStatement).length = k) (ha : holdsStatement p = true) (hc : Closes p after st)
include hs hk ha hc

theorem answeredAt_of_closes (hl : Lexer.Leaves (.ofText text) st.current st.reader) {s : Session}
    {o : Outcome} (he : (s.evaluate p).1 = [o]) : AnsweredAt text s k (some o) st.taken := by
  have ht := isCut_pieces text
  cases hc with
  | ended hg hb hf hr =>
    have hx := (isCut_pieces st.reader.pending).flatten
    rw [hr] at hx
    have hw : text = (before.flatten ++ p) ++ st.reader.pending := by
      rw [← hx, ← ht.flatten, hs]
      simp
    have he' : st.current.lexeme.toList <:+ p := ht.endings p (hs ▸ by simp) _ hg hb
    rw [hl.taken_of_isBoundary hb hw, ← hx]
    exact .ended hs hk ha he hg hb he'
  | unended hi hr hf hn =>
    rw [hl.taken_of_finish hf hn]
    exact .unended (hr ▸ hs) hk ha he hi

theorem of_closes (hl : Lexer.Leaves (.ofText text) st.current st.reader) : Passed text (k + 1) st := by
  have hk' : ((before ++ [p]).filter holdsStatement).length = k + 1 := by
    rw [List.filter_append, List.length_append, hk, List.filter_cons_of_pos ha]
    rfl
  refine ⟨hl, ?_⟩
  cases hc with
  | ended hg hb hf hr => exact .inl ⟨before ++ [p], by rw [hr, hs, List.append_cons], hk'⟩
  | unended hi hr hf hn => exact .inr ⟨hn, by rw [statements, hs, hr, hk']⟩

end

theorem finished (h : Passed text k st) (hl : Lexer.Leaves (.ofText text) st'.current st'.reader)
    (hs : ∀ p ∈ pieces st.reader.pending, holdsStatement p = false) (hf : st'.current = .finish)
    (hn : st'.reader.pending = []) (s : Session) :
    AnsweredAt text s k none st'.taken ∧ Passed text (k + 1) st' := by
  have hk : (statements text).length ≤ k := by
    obtain ⟨before, hp, hk⟩ | ⟨-, hk⟩ := h.rest
    · rw [statements, hp, List.filter_append, filter_holdsStatement_eq_nil hs, List.append_nil, hk]
    · exact hk
  rw [hl.taken_of_finish hf hn]
  exact ⟨.exhausted hk, hl, .inr ⟨hn, Nat.le_succ_of_le hk⟩⟩

theorem answered (h : Passed text k st) (hl : Lexer.Leaves (.ofText text) st'.current st'.reader)
    {skipped after : List (List Char)} {p : List Char} {s : Session} {o : Outcome}
    (hp : pieces st.reader.pending = skipped ++ p :: after)
    (hq : ∀ q ∈ skipped, holdsStatement q = false) (ha : holdsStatement p = true)
    (he : (s.evaluate p).1 = [o]) (hc : Closes p after st') :
    AnsweredAt text s k (some o) st'.taken ∧ Passed text (k + 1) st' := by
  obtain ⟨before, hb, hn⟩ | ⟨hn, -⟩ := h.rest
  · have hs : pieces text = (before ++ skipped) ++ p :: after := by rw [hb, hp, List.append_assoc]
    have hk : ((before ++ skipped).filter holdsStatement).length = k := by
      rw [List.filter_append, filter_holdsStatement_eq_nil hq, List.append_nil, hn]
    exact ⟨answeredAt_of_closes hs hk ha hc hl he, of_closes hs hk ha hc hl⟩
  · -- Behind the end there is no piece with a statement.
    have hm : p ∈ pieces [] := by
      rw [← hn, hp]
      simp
    rw [pieces_gap (by simp), List.mem_singleton] at hm
    rw [hm, holdsStatement, tokenize_gap (by simp)] at ha
    contradiction

theorem next (h : Passed text k st) (s : Session) :
    AnsweredAt text s k (s.next st).1 (s.next st).2.1.taken ∧ Passed text (k + 1) (s.next st).2.1 := by
  have hs := stops_nextOutcome? s.levels ⟨st, s.store⟩
  have hl := Lexer.Leaves.nextOutcome? s.levels (d := ⟨st, s.store⟩) h.leaves
  unfold Session.next
  generalize Desk.nextOutcome? s.levels ⟨st, s.store⟩ = step at hs hl
  cases hs with
  | finished hs hf hn => exact h.finished hl hs hf hn s
  | answered hp hk ha he hc => exact h.answered hl hp hk ha (congrArg Prod.fst he) hc

theorem after (text : List Char) (ss : List Session) :
    Passed text ss.length ((TokenStream.ofText text).after ss) := by
  induction ss using List.reverseRecOn with
  | nil => exact .ofText text
  | append_singleton ss s ih =>
    rw [TokenStream.after_append_singleton, List.length_append, List.length_singleton]
    exact (ih.next s).2

end Passed

/-- A text is read when it is asked for an outcome, and not before. It has been read to the end of the statement
that is answered then, whatever comes of it, and in whatever sessions it is asked. -/
theorem answeredAt_next (text : List Char) (ss : List Session) (s : Session) :
    let st := (TokenStream.ofText text).after ss
    IsCut text (pieces text) ∧ (TokenStream.ofText text).taken = 0 ∧
      AnsweredAt text s ss.length (s.next st).1 (s.next st).2.1.taken :=
  ⟨isCut_pieces text, rfl, ((Passed.after text ss).next s).1⟩

end DeskCalculator
