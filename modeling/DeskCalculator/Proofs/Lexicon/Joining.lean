import DeskCalculator.Proofs.Lexicon.Writing

set_option autoImplicit false

namespace DeskCalculator

structure EndsTokens (c : Char) : Prop where
  not_digit : Text.isAsciiDigit c = false
  not_point : c ≠ '.'
  not_name : isNameCharacter c = false

theorem endsTokens_of_isGap {c : Char} (h : isGap c = true) : EndsTokens c where
  not_digit := by
    rw [Bool.eq_false_iff]
    intro hd
    simp [not_isGap_of_isAsciiDigit hd] at h
  not_point := by
    rintro rfl
    exact absurd h (by decide)
  not_name := not_isNameCharacter_of_isGap h

/-- A token looks no further than at the next character, and there only for what would extend it. -/
theorem Token.Stands.of_notNext {t : Token} {rest rest' : List Char} (h : t.Stands rest)
    (hd : NotNext Text.isAsciiDigit rest → NotNext Text.isAsciiDigit rest')
    (hp : NotNext (· == '.') rest → NotNext (· == '.') rest')
    (hn : NotNext isNameCharacter rest → NotNext isNameCharacter rest') : t.Stands rest' := by
  cases h with
  | symbol hk hs => exact .symbol hk hs
  | number hn hrd hrp hv hs => exact .number hn (hd hrd) (fun hm => hp (hrp hm)) hv hs
  | name hl hcs hr hs => exact .name hl hcs (hn hr) hs
  | badNumber hr hs => exact .badNumber (hd hr) hs
  | badToken hg hk hcd hcp hl hs => exact .badToken hg hk hcd hcp hl hs

theorem Token.Stands.of_head {t : Token} {rest rest' : List Char} (h : t.Stands rest)
    (hh : ∀ c ∈ rest'.head?, c ∈ rest.head? ∨ EndsTokens c) : t.Stands rest' := by
  refine h.of_notNext ?_ ?_ ?_
  · exact fun hr c hc => (hh c hc).elim (hr c) EndsTokens.not_digit
  · exact fun hr c hc => (hh c hc).elim (hr c) fun he => by simp [he.not_point]
  · exact fun hr c hc => (hh c hc).elim (hr c) EndsTokens.not_name

theorem Token.Stands.of_prefix {t : Token} {p rest : List Char} (h : t.Stands rest) (hp : p <+: rest) :
    t.Stands p := by
  refine h.of_head fun c hc => .inl ?_
  obtain ⟨us, rfl⟩ := hp
  cases p with
  | nil => simp at hc
  | cons d ds => exact hc

theorem exists_lexical_tokenize (text : List Char) :
    ∃ w : Writing, w.text = text ∧ w.Lexical (tokenize text) :=
  Writing.exists_lexical (.ofText text)

theorem Lexer.tokens_eq_tokenize (r : Reader) : tokens r = tokenize r.pending := by
  obtain ⟨w, hw, h⟩ := exists_lexical_tokenize r.pending
  exact h.tokens_eq hw.symm

theorem tokenize_gap {gap : List Char} (h : ∀ c ∈ gap, isGap c = true) : tokenize gap = [] :=
  (Writing.Lexical.last h).tokenize_eq

theorem tokenize_piece {gap rest : List Char} {t : Token} (hg : ∀ c ∈ gap, isGap c = true)
    (ht : t.Stands rest) : tokenize (gap ++ (t.lexeme.toList ++ rest)) = t :: tokenize rest := by
  obtain ⟨w, rfl, hl⟩ := exists_lexical_tokenize rest
  exact (Writing.Lexical.piece hg rfl ht hl).tokenize_eq

theorem tokenize_of_prefix {gap p rest : List Char} {t : Token} (hg : ∀ c ∈ gap, isGap c = true)
    (ht : t.Stands rest) (hp : p <+: rest) :
    tokenize (gap ++ t.lexeme.toList ++ p) = t :: tokenize p := by
  rw [List.append_assoc]
  exact tokenize_piece hg (ht.of_prefix hp)

theorem tokenize_single {gap rest : List Char} {t : Token} (hg : ∀ c ∈ gap, isGap c = true)
    (ht : t.Stands rest) : tokenize (gap ++ t.lexeme.toList) = [t] := by
  have hp := tokenize_of_prefix hg ht List.nil_prefix
  rwa [List.append_nil, tokenize_gap (by simp : ∀ c ∈ [], isGap c = true)] at hp

theorem Writing.Lexical.tokenize_append_symbol {c : Char} {e : Token}
    (he : Token.ofSymbol? c = some e) (hc : EndsTokens c) {w : Writing} {ts : List Token}
    (h : w.Lexical ts) (b : List Char) : tokenize (w.text ++ c :: b) = ts ++ e :: tokenize b := by
  have hl : e.lexeme.toList = [c] := Lexer.lexeme_ofSymbol? he
  induction h with
  | last hg =>
    have ht := tokenize_piece hg (Token.stands_of_ofSymbol? he b)
    rwa [hl] at ht
  | @piece gap lexeme t w ts hg hx ht _ ih =>
    subst hx
    have ht' : t.Stands (w.text ++ c :: b) := by
      refine ht.of_head fun d hd => ?_
      cases hw : w.text with
      | nil =>
        obtain rfl : c = d := by simpa [hw] using hd
        exact .inr hc
      | cons u us =>
        rw [hw] at hd
        exact .inl hd
    have htw := tokenize_piece hg ht'
    rw [ih] at htw
    simpa [Writing.text] using htw

theorem tokenize_append_symbol {c : Char} {e : Token} (he : Token.ofSymbol? c = some e)
    (hc : EndsTokens c) (a b : List Char) :
    tokenize (a ++ c :: b) = tokenize a ++ e :: tokenize b := by
  obtain ⟨w, hw, h⟩ := exists_lexical_tokenize a
  rw [← hw] at h ⊢
  exact h.tokenize_append_symbol he hc b

theorem endsTokens_newline : EndsTokens '\n' := ⟨by decide, by decide, by decide +kernel⟩

theorem endsTokens_semicolon : EndsTokens ';' := ⟨by decide, by decide, by decide +kernel⟩

end DeskCalculator
