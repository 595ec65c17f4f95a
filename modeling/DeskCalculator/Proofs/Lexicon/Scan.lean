import DeskCalculator.Proofs.Lexicon.Numeral
import DeskCalculator.Proofs.Source.Sequence

set_option autoImplicit false

namespace DeskCalculator

theorem Token.shows_of_ofSymbol? {c : Char} {t : Token} (h : ofSymbol? c = some t) :
    (c, t.kind) ∈ symbolKinds ∧ t.Shows t.kind [c] none none := by
  unfold ofSymbol? at h
  split at h <;> cases h <;>
    exact ⟨by simp [symbolKinds, Token.kind], rfl, by simp [lexeme], rfl, rfl⟩

theorem Token.stands_of_ofSymbol? {c : Char} {t : Token} (h : ofSymbol? c = some t)
    (rest : List Char) : t.Stands rest := by
  obtain ⟨hk, hs⟩ := shows_of_ofSymbol? h
  exact .symbol hk hs

theorem Token.exists_ofSymbol?_of_mem {c : Char} {k : TokenKind} (h : (c, k) ∈ symbolKinds) :
    ∃ t, ofSymbol? c = some t ∧ t.Shows k [c] none none := by
  simp only [symbolKinds, List.mem_cons, Prod.mk.injEq, List.not_mem_nil, or_false] at h
  obtain h | h | h | h | h | h | h | h | h := h <;> obtain ⟨rfl, rfl⟩ := h <;>
    exact ⟨_, rfl, rfl, by simp [lexeme], rfl, rfl⟩

theorem Token.shows_invalid {c : Char} (h : c ≠ '.') :
    (Token.invalid c).Shows .exprEnd [c] none
      (some ⟨.lexical, "bad token " ++ String.ofList (Text.quoted [c])⟩) := by
  refine ⟨rfl, by simp [lexeme], rfl, ?_⟩
  simp [report?, cause?, h, Cause.report, Cause.kind, Cause.message]

theorem Token.toNat_of_ofSymbol? {c : Char} {t : Token} (h : ofSymbol? c = some t) :
    c.toNat ≤ 0x40 ∧ Text.isAsciiDigit c = false ∧ c ≠ '.' ∧ isGap c = false := by
  unfold ofSymbol? at h
  split at h <;> cases h <;> decide

theorem Token.ofSymbol?_of_isLetter {c : Char} (h : Text.isLetter c = true) :
    ofSymbol? c = none := by
  cases ho : ofSymbol? c with
  | none => rfl
  | some t =>
    have hl := Text.lt_of_isLetter h
    have ht := (toNat_of_ofSymbol? ho).1
    omega

theorem Token.ofSymbol?_of_isAsciiDigit {c : Char} (h : Text.isAsciiDigit c = true) :
    ofSymbol? c = none := by
  cases ho : ofSymbol? c with
  | none => rfl
  | some t => simp [(toNat_of_ofSymbol? ho).2.1] at h

namespace Lexer

variable {r : Reader} {c : Char} {rest : List Char}

theorem exists_scan_eq (h : r.pending.dropWhile isGap = c :: rest) :
    ∃ (r' : Reader) (room : r'.held = none), r'.pending = rest ∧
      scan r =
        match Token.ofSymbol? c with
        | some t => (t, r')
        | none =>
          if Text.isAsciiDigit c || c = '.' then scanNumber (r'.putBack c room)
          else if Text.isLetter c then scanName (r'.putBack c room)
          else (.invalid c, r') := by
  obtain ⟨h₁, h₂, h₃⟩ := r.firstNot_spec isGap
  rw [h] at h₁ h₂
  refine ⟨(r.firstNot isGap).2, h₃, h₂, ?_⟩
  unfold scan
  simp only
  split <;> rename_i h₄ <;> rw [h₄] at h₁ <;> cases h₁
  rfl

theorem scan_symbol (h : r.pending.dropWhile isGap = c :: rest) {t : Token}
    (ht : Token.ofSymbol? c = some t) : (scan r).1 = t ∧ (scan r).2.pending = rest := by
  obtain ⟨r', room, hr, hs⟩ := exists_scan_eq h
  simp [hs, ht, hr]

theorem exists_scan_number (h : r.pending.dropWhile isGap = c :: rest)
    (hc : Text.isAsciiDigit c = true ∨ c = '.') :
    ∃ r', r'.pending = c :: rest ∧ scan r = scanNumber r' := by
  obtain ⟨r', room, hr, hs⟩ := exists_scan_eq h
  have ht : Token.ofSymbol? c = none := by
    obtain hc | rfl := hc
    · exact Token.ofSymbol?_of_isAsciiDigit hc
    · rfl
  exact ⟨r'.putBack c room, by simp [hr], by simp [hs, ht, hc]⟩

theorem scan_name (h : r.pending.dropWhile isGap = c :: rest) (hc : Text.isLetter c = true) :
    (scan r).1 = .name (String.ofList (c :: rest.takeWhile isNameCharacter)) ∧
      (scan r).2.pending = rest.dropWhile isNameCharacter := by
  obtain ⟨r', room, hr, hs⟩ := exists_scan_eq h
  have hp : ¬c = '.' := Text.ne_point_of_isLetter hc
  obtain ⟨h₁, h₂⟩ := (r'.putBack c room).takeWhile_spec isNameCharacter
  have hn : isNameCharacter c = true := by simp [isNameCharacter, hc]
  simp only [Reader.pending_putBack, hr, List.takeWhile_cons, List.dropWhile_cons, hn,
    if_true] at h₁ h₂
  simp [hs, Token.ofSymbol?_of_isLetter hc, Text.not_isAsciiDigit_of_isLetter hc, hp, hc, scanName,
    h₁, h₂]

theorem scan_invalid (h : r.pending.dropWhile isGap = c :: rest) (ht : Token.ofSymbol? c = none)
    (hd : Text.isAsciiDigit c = false) (hp : c ≠ '.') (hl : Text.isLetter c = false) :
    (scan r).1 = .invalid c ∧ (scan r).2.pending = rest := by
  obtain ⟨r', room, hr, hs⟩ := exists_scan_eq h
  simp [hs, ht, hd, hp, hl, hr]

theorem stands_scanNumber_of_isNumeral {cs : List Char} (hn : IsNumeral cs)
    (hr : r.pending = cs ++ rest) (hd : NotNext Text.isAsciiDigit rest)
    (hp : '.' ∉ cs → NotNext (· == '.') rest) :
    (scanNumber r).1.Stands (scanNumber r).2.pending := by
  obtain ⟨d, hv, hs, hpe⟩ := scanNumber_numeral hn hr hd hp
  rw [hpe]
  exact .number hn hd hp hv hs

theorem stands_scanNumber (hr : r.pending = c :: rest) (hc : Text.isAsciiDigit c = true ∨ c = '.') :
    (scanNumber r).1.Stands (scanNumber r).2.pending := by
  -- The text is cut at the first character that is no digit, and once more behind a point.
  obtain ⟨whole, tail, hs, hw, hd⟩ := exists_cut Text.isAsciiDigit (c :: rest)
  by_cases hp : NotNext (· == '.') tail
  · have hne : whole ≠ [] := by
      intro he
      subst he
      obtain rfl : c :: rest = tail := hs
      simp_all
    exact stands_scanNumber_of_isNumeral (isNumeral_whole hw hne) (hr.trans hs) hd fun _ => hp
  · obtain ⟨after, rfl⟩ : ∃ ds, tail = '.' :: ds := by
      cases tail with
      | nil => exact absurd (notNext_nil _) hp
      | cons d ds => exact ⟨ds, by simp_all⟩
    obtain ⟨fraction, after, rfl, hf, hd'⟩ := exists_cut Text.isAsciiDigit after
    have hr' : r.pending = whole ++ '.' :: fraction ++ after := by simp [hr, hs]
    by_cases hne : whole ≠ [] ∨ fraction ≠ []
    · exact stands_scanNumber_of_isNumeral (isNumeral_point hw hf hne) hr' hd'
        fun hm => absurd (by simp) hm
    · simp only [ne_eq, not_or, not_not] at hne
      obtain ⟨rfl, rfl⟩ := hne
      obtain ⟨ht, hpe⟩ := scanNumber_bad hr' hd'
      rw [hpe]
      exact .badNumber hd' ht

/-- A token that is read may stand where it was read. -/
theorem stands_scan (h : (scan r).1 ≠ .finish) : (scan r).1.Stands (scan r).2.pending := by
  cases hd : r.pending.dropWhile isGap with
  | nil => exact absurd (scan_eq_finish_iff.2 hd) h
  | cons c rest =>
    have hg : isGap c = false := notNext_cons.1 (hd ▸ notNext_dropWhile isGap r.pending)
    cases ho : Token.ofSymbol? c with
    | some t =>
      obtain ⟨ht, hp⟩ := scan_symbol hd ho
      rw [ht]
      exact Token.stands_of_ofSymbol? ho _
    | none =>
      by_cases hc : Text.isAsciiDigit c = true ∨ c = '.'
      · obtain ⟨r', hr, hs⟩ := exists_scan_number hd hc
        rw [hs]
        exact stands_scanNumber hr hc
      · cases hl : Text.isLetter c with
        | true =>
          obtain ⟨ht, hp⟩ := scan_name hd hl
          have hw : ∀ d ∈ rest.takeWhile isNameCharacter, isNameCharacter d = true :=
            fun d hd => List.mem_takeWhile_imp hd
          rw [ht, hp]
          exact .name hl hw (notNext_dropWhile _ _) ⟨rfl, by simp [Token.lexeme], rfl, rfl⟩
        | false =>
          simp only [not_or, Bool.not_eq_true] at hc
          obtain ⟨ht, hp⟩ := scan_invalid hd ho hc.1 hc.2 hl
          rw [ht]
          refine .badToken hg ?_ hc.1 hc.2 hl (Token.shows_invalid hc.2)
          intro k hk
          obtain ⟨t, ht, -⟩ := Token.exists_ofSymbol?_of_mem hk
          simp [ho] at ht

/-- A token that may stand behind a gap is read there. -/
theorem scan_of_stands {t : Token} (hd : r.pending.dropWhile isGap = t.lexeme.toList ++ rest)
    (h : t.Stands rest) : (scan r).1 = t ∧ (scan r).2.pending = rest := by
  cases h with
  | @symbol c k hk hs =>
    rw [hs.lexeme] at hd
    obtain ⟨u, ho, hu⟩ := Token.exists_ofSymbol?_of_mem hk
    obtain rfl := Token.eq_of_shows hs hu
    exact scan_symbol hd ho
  | @number cs d hn hrd hrp hv hs =>
    obtain ⟨e, he, -⟩ := hn.digit
    obtain ⟨c, ds, rfl⟩ := List.exists_cons_of_ne_nil (List.ne_nil_of_mem he)
    rw [hs.lexeme] at hd
    obtain ⟨r', hr, hsc⟩ := exists_scan_number hd (hn.digit_or_point c List.mem_cons_self)
    obtain ⟨d', hv', hs', hp⟩ := scanNumber_numeral hn hr hrd hrp
    obtain rfl : d = d' := Option.some.inj (hv.symm.trans hv')
    rw [hsc]
    exact ⟨Token.eq_of_shows hs' hs, hp⟩
  | @name c cs hl hcs hr hs =>
    rw [hs.lexeme, List.cons_append] at hd
    obtain ⟨ht, hp⟩ := scan_name hd hl
    rw [hr.takeWhile_eq hcs] at ht
    rw [hr.dropWhile_eq hcs] at hp
    refine ⟨ht.trans (Token.eq_of_shows (k := .name) ?_ hs), hp⟩
    exact ⟨rfl, by simp [Token.lexeme], rfl, rfl⟩
  | badNumber hr hs =>
    rw [hs.lexeme] at hd
    obtain ⟨r', hr', hsc⟩ := exists_scan_number hd (.inr rfl)
    obtain ⟨hs', hp⟩ := scanNumber_bad hr' hr
    rw [hsc]
    exact ⟨Token.eq_of_shows hs' hs, hp⟩
  | @badToken c hg hk hdg hp hl hs =>
    rw [hs.lexeme] at hd
    have ho : Token.ofSymbol? c = none := by
      cases ho : Token.ofSymbol? c with
      | none => rfl
      | some t => exact absurd (Token.shows_of_ofSymbol? ho).1 (hk _)
    obtain ⟨ht, hpe⟩ := scan_invalid hd ho hdg hp hl
    refine ⟨ht.trans (Token.eq_of_shows (k := .exprEnd) ?_ hs), hpe⟩
    exact Token.shows_invalid hp

end Lexer

end DeskCalculator
