import DeskCalculator.Desk
import DeskCalculator.Token.Stream

/-!
Tokens in a list, which is a source of tokens: its head is the current token, and behind the last token
there is nothing but the end. Main statement: a text that is read and the list of its tokens deliver the
same tokens.
-/
set_option autoImplicit false

namespace DeskCalculator

def Token.firstOf : List Token → Token
  | [] => .finish
  | t :: _ => t

@[simp] theorem Token.firstOf_nil : firstOf [] = .finish := rfl

@[simp] theorem Token.firstOf_cons (t : Token) (ts : List Token) : firstOf (t :: ts) = t := rfl

instance : TokenSource (List Token) where
  current := Token.firstOf
  advance := List.tail
  rest ts := ts.tail.length
  rest_advance_le ts := by simp
  rest_advance_lt ts h := by
    cases ts with
    | nil => simp at h
    | cons t ts =>
      cases ts with
      | nil => simp at h
      | cons u ts => simp

namespace Desk

variable {μ : Type}

@[simp] theorem current_mk (ts : List Token) (m : μ) :
    (Desk.mk ts m).current = Token.firstOf ts := rfl

@[simp] theorem advance_mk [Memory μ] (ts : List Token) (m : μ) :
    (Desk.mk ts m).advance = ⟨ts.tail, Memory.note m (Token.firstOf ts.tail)⟩ := rfl

theorem source_eq_cons [Memory μ] {d : Desk (List Token) μ} (h : d.current.isBoundary = false) :
    d.source = d.current :: d.advance.source := by
  obtain ⟨ts, m⟩ := d
  cases ts with
  | nil => contradiction
  | cons t ts => rfl

theorem current_mem_source {d : Desk (List Token) μ} (h : d.current.isBoundary = false) :
    d.current ∈ d.source := by
  obtain ⟨ts, m⟩ := d
  cases ts with
  | nil => contradiction
  | cons t ts => exact List.mem_cons_self

end Desk

/-- A list is passed from the front: what is reached before a token that ends a statement is a part of
the list from some place on. -/
theorem TokenSource.Reaches.eq_append {ts us k : List Token} (h : Reaches (ts ++ k) us)
    (hk : (Token.firstOf k).isBoundary = true) : ∃ vs, us = vs ++ k ∧ vs <:+ ts := by
  generalize hs : ts ++ k = s at h
  induction h generalizing ts with
  | refl => exact ⟨ts, hs.symm, List.suffix_refl ts⟩
  | @step s u hb h ih =>
    subst hs
    cases ts with
    | nil =>
      change (Token.firstOf k).isBoundary = false at hb
      rw [hk] at hb
      contradiction
    | cons t ts =>
      obtain ⟨vs, hv, hs⟩ := ih rfl
      exact ⟨vs, hv, hs.trans (List.suffix_cons t ts)⟩

namespace Lexer

theorem numberToken_ne_finish (whole : List Char) (fraction? : Option (List Char)) :
    numberToken whole fraction? ≠ .finish := by
  unfold numberToken
  simp only
  split <;> simp

theorem scanNumber_ne_finish (r : Reader) : (scanNumber r).1 ≠ .finish := by
  unfold scanNumber
  simp only
  split
  · exact numberToken_ne_finish _ _
  · split <;> exact numberToken_ne_finish _ _

theorem ofSymbol?_ne_finish {c : Char} {t : Token} (h : Token.ofSymbol? c = some t) :
    t ≠ .finish := by
  intro ht
  subst ht
  have hl := lexeme_ofSymbol? h
  simp [Token.lexeme] at hl

theorem scan_eq_finish_iff {r : Reader} :
    (scan r).1 = .finish ↔ r.pending.dropWhile isGap = [] := by
  have hf := (r.firstNot_spec isGap).1
  rw [← List.head?_eq_none_iff, ← hf]
  unfold scan
  simp only
  split
  · rename_i h
    simp [h]
  · rename_i c h
    simp only [h, reduceCtorEq, iff_false]
    split
    · rename_i t ht
      exact ofSymbol?_ne_finish ht
    · split
      · exact scanNumber_ne_finish _
      · split <;> simp [scanName]

theorem pending_of_scan_finish {r : Reader} (h : (scan r).1 = .finish) :
    (scan r).2.pending = [] := by
  have hs := pending_scan r
  have hd := scan_eq_finish_iff.1 h
  have hr := List.takeWhile_append_dropWhile (p := isGap) (l := r.pending)
  rw [h, Token.lexeme] at hs
  rw [hd, List.append_nil] at hr
  simpa [hr] using hs

theorem tokens_of_pending_nil {r : Reader} (h : r.pending = []) : tokens r = [] := by
  rw [tokens, dif_pos (scan_eq_finish_iff.2 (by simp [h]))]

theorem tokens_eq (r : Reader) :
    Token.firstOf (tokens r) = (scan r).1 ∧ (tokens r).tail = tokens (scan r).2 := by
  by_cases h : (scan r).1 = .finish
  · rw [tokens_of_pending_nil (pending_of_scan_finish h), tokens, dif_pos h]
    simp [h]
  · have ht : tokens r = (scan r).1 :: tokens (scan r).2 := by rw [tokens, dif_neg h]
    simp [ht]

theorem finish_not_mem_tokens (r : Reader) : .finish ∉ tokens r := by
  fun_induction tokens r with
  | case1 r h => simp
  | case2 r h ih => simp [Ne.symm h, ih]

end Lexer

/-- The tokens that the stream delivers, from the current one on, are those of the list. -/
def TokenStream.Delivers (s : TokenStream) (ts : List Token) : Prop :=
  s.current = Token.firstOf ts ∧ Lexer.tokens s.reader = ts.tail

theorem TokenStream.delivers_ofText (text : List Char) :
    (ofText text).Delivers (.finish :: tokenize text) := ⟨rfl, rfl⟩

theorem TokenStream.Delivers.advance {s : TokenStream} {ts : List Token} (h : s.Delivers ts) :
    s.advance.Delivers ts.tail := by
  have ht := Lexer.tokens_eq s.reader
  rw [h.2] at ht
  exact ⟨ht.1.symm, ht.2.symm⟩

end DeskCalculator
