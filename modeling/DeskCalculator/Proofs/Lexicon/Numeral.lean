import DeskCalculator.Proofs.Lexicon.Characters
import DeskCalculator.Proofs.Lexicon.Lexeme
import Mathlib.Data.List.TakeWhile

set_option autoImplicit false

namespace DeskCalculator

theorem notNext_nil (p : Char → Bool) : NotNext p [] := by
  simp [NotNext]

@[simp] theorem notNext_cons {p : Char → Bool} {c : Char} {cs : List Char} :
    NotNext p (c :: cs) ↔ p c = false := by
  simp [NotNext]

theorem NotNext.takeWhile_eq {p : Char → Bool} {cs rest : List Char} (h : NotNext p rest)
    (hc : ∀ c ∈ cs, p c = true) : (cs ++ rest).takeWhile p = cs := by
  rw [List.takeWhile_append_of_pos hc]
  cases rest with
  | nil => simp
  | cons d ds => simp [h d rfl]

theorem NotNext.dropWhile_eq {p : Char → Bool} {cs rest : List Char} (h : NotNext p rest)
    (hc : ∀ c ∈ cs, p c = true) : (cs ++ rest).dropWhile p = rest := by
  rw [List.dropWhile_append_of_pos hc]
  cases rest with
  | nil => simp
  | cons d ds => simp [h d rfl]

theorem notNext_dropWhile (p : Char → Bool) (cs : List Char) : NotNext p (cs.dropWhile p) := by
  intro c hc
  simpa [Option.mem_def.1 hc] using List.head?_dropWhile_not p cs

theorem exists_cut (p : Char → Bool) (cs : List Char) :
    ∃ ds rest, cs = ds ++ rest ∧ (∀ c ∈ ds, p c = true) ∧ NotNext p rest :=
  ⟨cs.takeWhile p, cs.dropWhile p, List.takeWhile_append_dropWhile.symm,
    fun _ hc => List.mem_takeWhile_imp hc, notNext_dropWhile p cs⟩

theorem IsNumeral.shape {cs : List Char} (h : IsNumeral cs) :
    ((∀ c ∈ cs, Text.isAsciiDigit c = true) ∧ cs ≠ [] ∧ '.' ∉ cs) ∨
      ∃ whole fraction : List Char, cs = whole ++ '.' :: fraction ∧
        (∀ c ∈ whole, Text.isAsciiDigit c = true) ∧
        (∀ c ∈ fraction, Text.isAsciiDigit c = true) ∧ (whole ≠ [] ∨ fraction ≠ []) := by
  obtain ⟨hd, hp, c, hc, hcd⟩ := h
  by_cases hm : '.' ∈ cs
  · right
    obtain ⟨whole, fraction, rfl⟩ := List.append_of_mem hm
    simp only [List.count_append, List.count_cons_self] at hp
    have hw : '.' ∉ whole := List.count_eq_zero.1 (by omega)
    have hf : '.' ∉ fraction := List.count_eq_zero.1 (by omega)
    refine ⟨whole, fraction, rfl, ?_, ?_, ?_⟩
    · intro d hd'
      obtain h | rfl := hd d (by simp [hd'])
      · exact h
      · exact absurd hd' hw
    · intro d hd'
      obtain h | rfl := hd d (by simp [hd'])
      · exact h
      · exact absurd hd' hf
    · simp only [List.mem_append, List.mem_cons] at hc
      obtain hc | rfl | hc := hc
      · exact .inl (List.ne_nil_of_mem hc)
      · contradiction
      · exact .inr (List.ne_nil_of_mem hc)
  · left
    refine ⟨?_, List.ne_nil_of_mem hc, hm⟩
    intro d hd'
    obtain h | rfl := hd d hd'
    · exact h
    · exact absurd hd' hm

theorem not_mem_of_isAsciiDigit {cs : List Char} (h : ∀ c ∈ cs, Text.isAsciiDigit c = true) :
    '.' ∉ cs := by
  intro hm
  have hd := h '.' hm
  contradiction

theorem isNumeral_whole {whole : List Char} (hw : ∀ c ∈ whole, Text.isAsciiDigit c = true)
    (hn : whole ≠ []) : IsNumeral whole where
  digit_or_point c hc := .inl (hw c hc)
  point := by simp [List.count_eq_zero.2 (not_mem_of_isAsciiDigit hw)]
  digit := by
    obtain ⟨c, hc⟩ := List.exists_mem_of_ne_nil whole hn
    exact ⟨c, hc, hw c hc⟩

theorem isNumeral_point {whole fraction : List Char}
    (hw : ∀ c ∈ whole, Text.isAsciiDigit c = true)
    (hf : ∀ c ∈ fraction, Text.isAsciiDigit c = true) (hn : whole ≠ [] ∨ fraction ≠ []) :
    IsNumeral (whole ++ '.' :: fraction) where
  digit_or_point c hc := by
    simp only [List.mem_append, List.mem_cons] at hc
    obtain hc | rfl | hc := hc
    · exact .inl (hw c hc)
    · exact .inr rfl
    · exact .inl (hf c hc)
  point := by
    simp [List.count_eq_zero.2 (not_mem_of_isAsciiDigit hw),
      List.count_eq_zero.2 (not_mem_of_isAsciiDigit hf)]
  digit := by
    obtain hn | hn := hn
    · obtain ⟨c, hc⟩ := List.exists_mem_of_ne_nil whole hn
      exact ⟨c, by simp [hc], hw c hc⟩
    · obtain ⟨c, hc⟩ := List.exists_mem_of_ne_nil fraction hn
      exact ⟨c, by simp [hc], hf c hc⟩

theorem Decimal.ofLexeme?_whole {whole : List Char} (h : '.' ∉ whole) :
    ofLexeme? whole = ofNumeral? whole [] := by
  have hw : ∀ c ∈ whole, (c != '.') = true := by
    intro c hc
    simpa using fun he : c = '.' => h (he ▸ hc)
  have ht := (notNext_nil (· != '.')).takeWhile_eq hw
  have hd := (notNext_nil (· != '.')).dropWhile_eq hw
  rw [List.append_nil] at ht hd
  simp only [ofLexeme?, ht, hd, List.tail_nil]

theorem Decimal.ofLexeme?_point {whole : List Char} (h : '.' ∉ whole) (fraction : List Char) :
    ofLexeme? (whole ++ '.' :: fraction) = ofNumeral? whole fraction := by
  have hw : ∀ c ∈ whole, (c != '.') = true := by
    intro c hc
    simpa using fun he : c = '.' => h (he ▸ hc)
  have hn : NotNext (· != '.') ('.' :: fraction) := by simp
  simp [ofLexeme?, hn.takeWhile_eq hw, hn.dropWhile_eq hw]

theorem Decimal.exists_ofNumeral? {whole fraction : List Char}
    (h : whole ≠ [] ∨ fraction ≠ []) : ∃ d, ofNumeral? whole fraction = some d := by
  have hn : (whole.isEmpty && fraction.isEmpty) = false := by
    cases whole <;> cases fraction <;> simp_all
  exact ⟨_, by simp only [ofNumeral?, hn]; rfl⟩

namespace Lexer

theorem shows_numberToken_whole {whole : List Char}
    (hw : ∀ c ∈ whole, Text.isAsciiDigit c = true) (hn : whole ≠ []) :
    ∃ d, Decimal.ofLexeme? whole = some d ∧
      (numberToken whole none).Shows .number whole (some d.toFloat) none := by
  obtain ⟨d, hd⟩ := @Decimal.exists_ofNumeral? whole [] (.inl hn)
  refine ⟨d, (Decimal.ofLexeme?_whole (not_mem_of_isAsciiDigit hw)).trans hd, ?_⟩
  have ht : numberToken whole none = .number (String.ofList whole) d.toFloat := by
    simp [numberToken, hd]
  rw [ht]
  exact ⟨rfl, by simp [Token.lexeme], rfl, rfl⟩

theorem shows_numberToken_point {whole fraction : List Char}
    (hw : ∀ c ∈ whole, Text.isAsciiDigit c = true) (hn : whole ≠ [] ∨ fraction ≠ []) :
    ∃ d, Decimal.ofLexeme? (whole ++ '.' :: fraction) = some d ∧
      (numberToken whole (some fraction)).Shows .number (whole ++ '.' :: fraction)
        (some d.toFloat) none := by
  obtain ⟨d, hd⟩ := Decimal.exists_ofNumeral? hn
  refine ⟨d, (Decimal.ofLexeme?_point (not_mem_of_isAsciiDigit hw) fraction).trans hd, ?_⟩
  have ht : numberToken whole (some fraction) =
      .number (String.ofList (whole ++ '.' :: fraction)) d.toFloat := by
    simp [numberToken, hd]
  rw [ht]
  exact ⟨rfl, by simp [Token.lexeme], rfl, rfl⟩

theorem shows_numberToken_bad :
    (numberToken [] (some [])).Shows .exprEnd ['.'] none
      (some ⟨.lexical, "bad number '.'"⟩) := by
  have ht : numberToken [] (some []) = .invalid '.' := rfl
  rw [ht]
  exact ⟨rfl, by simp [Token.lexeme], rfl, rfl⟩

theorem scanNumber_of_none {r : Reader} (h : (r.takeWhile Text.isAsciiDigit).2.next? = none) :
    scanNumber r =
      (numberToken (r.takeWhile Text.isAsciiDigit).1 none, (r.takeWhile Text.isAsciiDigit).2) := by
  rw [scanNumber]
  split <;> rename_i hs <;> rw [h] at hs
  contradiction

theorem scanNumber_of_some {r r' : Reader} {c : Char}
    (h : (r.takeWhile Text.isAsciiDigit).2.next? = some (c, r')) :
    scanNumber r =
      if c = '.' then
        (numberToken (r.takeWhile Text.isAsciiDigit).1 (some (r'.takeWhile Text.isAsciiDigit).1),
          (r'.takeWhile Text.isAsciiDigit).2)
      else (numberToken (r.takeWhile Text.isAsciiDigit).1 none,
        r'.putBack c (Reader.held_of_next? h)) := by
  rw [scanNumber]
  split <;> rename_i hs <;> rw [h] at hs <;> cases hs
  rfl

theorem scanNumber_whole {r : Reader} {whole rest : List Char} (h : r.pending = whole ++ rest)
    (hw : ∀ c ∈ whole, Text.isAsciiDigit c = true) (hd : NotNext Text.isAsciiDigit rest)
    (hp : NotNext (· == '.') rest) :
    (scanNumber r).1 = numberToken whole none ∧ (scanNumber r).2.pending = rest := by
  obtain ⟨h₁, h₂⟩ := r.takeWhile_spec Text.isAsciiDigit
  rw [h, hd.takeWhile_eq hw] at h₁
  rw [h, hd.dropWhile_eq hw] at h₂
  unfold scanNumber
  simp only
  split
  · exact ⟨by rw [h₁], h₂⟩
  · rename_i c r' hc
    have hr := (Reader.pending_of_next? hc).symm.trans h₂
    have hcp : ¬ c = '.' := by
      rw [← hr, notNext_cons] at hp
      simpa using hp
    simp [if_neg hcp, h₁, hr]

theorem scanNumber_point {r : Reader} {whole fraction rest : List Char}
    (h : r.pending = whole ++ '.' :: (fraction ++ rest))
    (hw : ∀ c ∈ whole, Text.isAsciiDigit c = true)
    (hf : ∀ c ∈ fraction, Text.isAsciiDigit c = true) (hd : NotNext Text.isAsciiDigit rest) :
    (scanNumber r).1 = numberToken whole (some fraction) ∧ (scanNumber r).2.pending = rest := by
  obtain ⟨h₁, h₂⟩ := r.takeWhile_spec Text.isAsciiDigit
  have hn : NotNext Text.isAsciiDigit ('.' :: (fraction ++ rest)) := notNext_cons.2 (by decide)
  rw [h, hn.takeWhile_eq hw] at h₁
  rw [h, hn.dropWhile_eq hw] at h₂
  unfold scanNumber
  simp only
  split
  · rename_i hc
    rw [Reader.next?_eq_none_iff.1 hc] at h₂
    contradiction
  · rename_i c r' hc
    have hr := (Reader.pending_of_next? hc).symm.trans h₂
    obtain ⟨rfl, hr'⟩ := List.cons.inj hr
    obtain ⟨h₃, h₄⟩ := r'.takeWhile_spec Text.isAsciiDigit
    rw [hr', hd.takeWhile_eq hf] at h₃
    rw [hr', hd.dropWhile_eq hf] at h₄
    simp [h₁, h₃, h₄]

/-- A numeral that cannot be extended is read to its end. -/
theorem scanNumber_numeral {r : Reader} {cs rest : List Char} (hn : IsNumeral cs)
    (hr : r.pending = cs ++ rest) (hd : NotNext Text.isAsciiDigit rest)
    (hp : '.' ∉ cs → NotNext (· == '.') rest) :
    ∃ d, Decimal.ofLexeme? cs = some d ∧
      (scanNumber r).1.Shows .number cs (some d.toFloat) none ∧ (scanNumber r).2.pending = rest := by
  obtain ⟨hw, hne, hm⟩ | ⟨whole, fraction, rfl, hw, hf, hne⟩ := hn.shape
  · obtain ⟨d, hv, hs⟩ := shows_numberToken_whole hw hne
    obtain ⟨ht, hpe⟩ := scanNumber_whole hr hw hd (hp hm)
    exact ⟨d, hv, ht ▸ hs, hpe⟩
  · obtain ⟨d, hv, hs⟩ := shows_numberToken_point hw hne
    obtain ⟨ht, hpe⟩ := scanNumber_point (by simpa using hr) hw hf hd
    exact ⟨d, hv, ht ▸ hs, hpe⟩

theorem scanNumber_bad {r : Reader} {rest : List Char} (hr : r.pending = '.' :: rest)
    (hd : NotNext Text.isAsciiDigit rest) :
    (scanNumber r).1.Shows .exprEnd ['.'] none (some ⟨.lexical, "bad number '.'"⟩) ∧
      (scanNumber r).2.pending = rest := by
  obtain ⟨ht, hpe⟩ := @scanNumber_point r [] [] rest hr (by simp) (by simp) hd
  exact ⟨ht ▸ shows_numberToken_bad, hpe⟩

end Lexer

end DeskCalculator
