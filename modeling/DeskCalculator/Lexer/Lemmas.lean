import DeskCalculator.Lexer

set_option autoImplicit false

namespace DeskCalculator.Lexer

theorem lexeme_numberToken {whole fraction : List Char} (h : whole ≠ [] ∨ fraction ≠ []) :
    (numberToken whole (some fraction)).lexeme.toList = whole ++ '.' :: fraction := by
  have hn : (whole.isEmpty && fraction.isEmpty) = false := by
    cases whole <;> cases fraction <;> simp_all
  simp [numberToken, Decimal.ofNumeral?, hn, Token.lexeme]

theorem lexeme_numberToken_point :
    (numberToken [] (some [])).lexeme.toList = ['.'] := by
  simp [numberToken, Decimal.ofNumeral?, Token.lexeme]

theorem lexeme_numberToken_whole {whole : List Char} (h : whole ≠ []) :
    (numberToken whole none).lexeme.toList = whole := by
  have hn : (whole.isEmpty && ([] : List Char).isEmpty) = false := by
    cases whole <;> simp_all
  simp [numberToken, Decimal.ofNumeral?, Token.lexeme, h]

theorem lexeme_numberToken_ne_nil (whole : List Char) (fraction? : Option (List Char)) :
    (numberToken whole fraction?).lexeme.toList ≠ [] := by
  unfold numberToken
  simp only
  split
  · rename_i d h
    cases fraction? with
    | some fraction => simp [Token.lexeme]
    | none =>
      cases whole with
      | nil => simp [Decimal.ofNumeral?] at h
      | cons c cs => simp [Token.lexeme]
  · simp [Token.lexeme]

theorem pending_scanNumber {r : Reader} {c : Char} {cs : List Char} (hr : r.pending = c :: cs)
    (hc : Text.isAsciiDigit c = true ∨ c = '.') :
    r.pending = (scanNumber r).1.lexeme.toList ++ (scanNumber r).2.pending := by
  have hw := r.takeWhile_spec Text.isAsciiDigit
  have hsplit : r.pending = (r.takeWhile Text.isAsciiDigit).1 ++
      (r.takeWhile Text.isAsciiDigit).2.pending := by
    rw [hw.1, hw.2, List.takeWhile_append_dropWhile]
  have hne : (r.takeWhile Text.isAsciiDigit).2.next? = none ∨
      (∃ d r', (r.takeWhile Text.isAsciiDigit).2.next? = some (d, r') ∧ d ≠ '.') →
      (r.takeWhile Text.isAsciiDigit).1 ≠ [] := by
    intro h he
    rw [he, List.nil_append] at hsplit
    rcases h with h | ⟨d, r', h, hd⟩
    · rw [Reader.next?_eq_none_iff] at h
      rw [h, hr] at hsplit
      simp at hsplit
    · rw [Reader.pending_of_next? h, hr] at hsplit
      injection hsplit with h1 h2
      rcases hc with hc | hc
      · rw [hw.1, hr, List.takeWhile_cons, if_pos hc] at he
        simp at he
      · exact hd (h1 ▸ hc)
  unfold scanNumber
  simp only
  split
  · rename_i h
    rw [lexeme_numberToken_whole (hne (.inl h))]
    exact hsplit
  · rename_i d r' h
    by_cases hd : d = '.'
    · subst hd
      have hf := r'.takeWhile_spec Text.isAsciiDigit
      have hpf : r'.pending = (r'.takeWhile Text.isAsciiDigit).1 ++
          (r'.takeWhile Text.isAsciiDigit).2.pending := by
        rw [hf.1, hf.2, List.takeWhile_append_dropWhile]
      rw [Reader.pending_of_next? h] at hsplit
      simp only [if_true]
      rw [hsplit]
      by_cases he : (r.takeWhile Text.isAsciiDigit).1 = [] ∧
          (r'.takeWhile Text.isAsciiDigit).1 = []
      · rw [he.1, he.2, lexeme_numberToken_point]
        rw [he.2, List.nil_append] at hpf
        simp [← hpf]
      · rw [lexeme_numberToken (Classical.not_and_iff_not_or_not.1 he)]
        rw [List.append_assoc, List.cons_append, ← hpf]
    · simp only [hd, if_false]
      rw [lexeme_numberToken_whole (hne (.inr ⟨d, r', h, hd⟩)), Reader.pending_putBack,
        ← Reader.pending_of_next? h]
      exact hsplit

theorem lexeme_scanNumber_ne_nil (r : Reader) : (scanNumber r).1.lexeme.toList ≠ [] := by
  unfold scanNumber
  simp only
  split
  · exact lexeme_numberToken_ne_nil _ _
  · split <;> exact lexeme_numberToken_ne_nil _ _

theorem lexeme_ofSymbol? {c : Char} {t : Token} (h : Token.ofSymbol? c = some t) :
    t.lexeme.toList = [c] := by
  unfold Token.ofSymbol? at h
  split at h <;> simp at h <;> subst h <;> simp [Token.lexeme]

/-- The characters before a token, its lexeme and the characters left make up the text. -/
theorem pending_scan (r : Reader) :
    r.pending = r.pending.takeWhile isGap ++ (scan r).1.lexeme.toList ++ (scan r).2.pending := by
  obtain ⟨h1, h2, h3⟩ := r.firstNot_spec isGap
  have hsplit : r.pending = r.pending.takeWhile isGap ++ r.pending.dropWhile isGap :=
    List.takeWhile_append_dropWhile.symm
  have hcons : ∀ c, (r.firstNot isGap).1 = some c →
      r.pending.dropWhile isGap = c :: (r.firstNot isGap).2.pending := by
    intro c hc
    rw [h1] at hc
    rw [h2]
    cases hd : r.pending.dropWhile isGap with
    | nil => simp [hd] at hc
    | cons d ds => simp [hd] at hc; simp [hc]
  rw [List.append_assoc]
  conv => lhs; rw [hsplit]
  congr 1
  unfold scan
  simp only
  split
  · rename_i hn
    rw [h1] at hn
    have hd : r.pending.dropWhile isGap = [] := List.head?_eq_none_iff.1 hn
    rw [h2, hd]
    simp [Token.lexeme]
  · rename_i c hc
    rw [hcons c hc]
    split
    · rename_i t ht
      rw [lexeme_ofSymbol? ht]
      rfl
    · split
      · rename_i hd
        have := pending_scanNumber (Reader.pending_putBack (r.firstNot isGap).2 c h3)
          (by simpa using hd)
        rw [← this, Reader.pending_putBack]
      · split
        · have hw := ((r.firstNot isGap).2.putBack c h3).takeWhile_spec isNameCharacter
          simp only [scanName, Token.lexeme, String.toList_ofList]
          rw [hw.1, hw.2, List.takeWhile_append_dropWhile, Reader.pending_putBack]
        · simp [Token.lexeme]

theorem lexeme_scan_ne_nil {r : Reader} (h : (scan r).1 ≠ .finish) :
    (scan r).1.lexeme.toList ≠ [] := by
  revert h
  unfold scan
  simp only
  split
  · exact fun h => absurd rfl h
  · rename_i c hc
    intro _
    split
    · rename_i t ht
      rw [lexeme_ofSymbol? ht]
      exact List.cons_ne_nil _ _
    · split
      · exact lexeme_scanNumber_ne_nil _
      · split
        · rename_i hl
          simp only [scanName, Token.lexeme, String.toList_ofList]
          rw [(Reader.takeWhile_spec _ _).1, Reader.pending_putBack]
          simp [isNameCharacter, hl]
        · simp [Token.lexeme]

theorem pending_length_scan_le (r : Reader) :
    (scan r).2.pending.length ≤ r.pending.length := by
  have h := congrArg List.length (pending_scan r)
  simp only [List.length_append] at h
  omega

theorem pending_length_scan_lt {r : Reader} (h : (scan r).1 ≠ .finish) :
    (scan r).2.pending.length < r.pending.length := by
  have hl := congrArg List.length (pending_scan r)
  have hn := List.length_pos_iff.2 (lexeme_scan_ne_nil h)
  simp only [List.length_append] at hl
  omega

end DeskCalculator.Lexer
