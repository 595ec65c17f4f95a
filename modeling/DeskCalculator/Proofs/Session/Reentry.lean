import DeskCalculator.Proofs.Binary64.Comparison
import DeskCalculator.Proofs.Decimal.Layout
import DeskCalculator.Proofs.Grammar.Evaluation
import DeskCalculator.Proofs.Lexicon.Joining

set_option autoImplicit false

namespace DeskCalculator

open Float.Model Float.Model.UnpackedFloat Binary64

structure ReadsAs (text : List Char) (x : Float) : Prop where
  numeral : IsNumeral text
  value : ∃ d, Decimal.ofLexeme? text = some d ∧ d.toFloat = x

def IsPlain (x : Float) : Prop := (x == 0) = true ∨ 1e-4 ≤ x.abs ∧ x.abs < 1e16

namespace ReadsAs

variable {text : List Char} {x : Float}

theorem stands (h : ReadsAs text x) : (Token.number (String.ofList text) x).Stands [] := by
  obtain ⟨d, hd, rfl⟩ := h.value
  exact .number h.numeral (notNext_nil _) (fun _ => notNext_nil _) hd ⟨rfl, by simp [Token.lexeme], rfl, rfl⟩

theorem tokenize_eq (h : ReadsAs text x) : tokenize text = [.number (String.ofList text) x] := by
  have ht := @tokenize_single [] _ _ (by simp) h.stands
  simpa [Token.lexeme] using ht

theorem tokenize_minus (h : ReadsAs text x) :
    tokenize ('-' :: text) = [.minus, .number (String.ofList text) x] := by
  have ht := @tokenize_piece [] text _ (by simp) (Token.stands_of_ofSymbol? (c := '-') rfl text)
  rw [h.tokenize_eq] at ht
  exact ht

end ReadsAs

namespace Session

variable {text : List Char} {x : Float} (s : Session)

theorem evaluate_tree {b : Bool} (t : Tree .expression b) (h : tokenize text = t.tokens) :
    s.evaluate text = ([(s.walk t).1], (s.walk t).2) := by
  have hs : ∀ u ∈ ([] : List Token), u = .semicolon ∨ u = .newline := by simp
  rw [s.evaluate_eq_evaluateTokens, h, ← s.evaluateTokens_tree t hs, List.append_nil]

theorem evaluate_numeral (hs : 1 ≤ s.levels) (h : ReadsAs text x) : s.evaluate text = ([.ok x], s) := by
  have hw : s.walk (.summand (.factor (.number (String.ofList text) x))) = (.ok x, s) := by
    have hl : ¬ s.levels < 1 := by omega
    simp [walk, Tree.walk, Tree.guarded, hl, Walk.value]
  rw [s.evaluate_tree (.summand (.factor (.number (String.ofList text) x))) h.tokenize_eq, hw]

theorem evaluate_minus_numeral (hs : 2 ≤ s.levels) (h : ReadsAs text x) :
    s.evaluate ('-' :: text) = ([.ok (-x)], s) := by
  have hw : s.walk (.summand (.factor (.minus (.number (String.ofList text) x)))) = (.ok (-x), s) := by
    have h1 : ¬ s.levels < 1 := by omega
    have h2 : ¬ s.levels < 2 := by omega
    simp [walk, Tree.walk, Tree.guarded, h1, h2, Walk.value, Walk.andThen]
  rw [s.evaluate_tree (.summand (.factor (.minus (.number (String.ofList text) x)))) h.tokenize_minus, hw]

end Session

theorem readsAs_toDigits {m n : ℕ} {e : ℤ} (h : IsNormal m e) (hl : 10 ^ (-4 : ℤ) ≤ Binary64.value m e)
    (hw : wholeValue? m e = some n) :
    ReadsAs (Nat.toDigits 10 n) (.ofModel (.pack (.finite .positive m e h.pos))) := by
  have hd := Text.isAsciiDigit_toDigits n
  have hv : (⟨n, 0⟩ : Decimal).value = Binary64.value m e := by
    rw [wholeValue?_eq] at hw
    simp only [Option.ite_none_right_eq_some, Option.some.injEq] at hw
    obtain ⟨hz, rfl⟩ := hw
    rw [← Quotient.value_ofBinary, Quotient.value, ← (natCast_div_eq_iff (Quotient.den_pos m e)).2 hz]
    simp [Decimal.value]
  have hm : (⟨n, 0⟩ : Decimal).IsModerate := ⟨by simp, by simp, hv ▸ hl⟩
  refine ⟨isNumeral_whole hd Nat.toDigits_ne_nil, ⟨n, 0⟩, ?_, hm.toFloat_of_value h hv⟩
  rw [Decimal.ofLexeme?_whole (not_mem_of_isAsciiDigit hd), Decimal.ofNumeral?_eq Nat.toDigits_ne_nil, List.append_nil,
    Nat.ofDigitChars_ten_toDigits]
  rfl

theorem readsAs_text {m : ℕ} {e : ℤ} (h : IsNormal m e) (hl : 10 ^ (-4 : ℤ) ≤ Binary64.value m e)
    (hu : Binary64.value m e < 10 ^ (16 : ℤ)) {x : Float} (hx : x = .ofModel (.pack (.finite .positive m e h.pos))) :
    ReadsAs (Decimal.shortest x m e).text x := by
  obtain ⟨hm, hv, hf⟩ := Decimal.shortest_spec h hx hl hu
  obtain ⟨hn, d, hd, ht⟩ := hm.exists_ofLexeme?_text hv
  exact ⟨hn, d, hd, ht.trans hf⟩

/-- A number in the range is displayed by a numeral, after a minus if it is negative. -/
theorem exists_readsAs {x : Float} (hl : 1e-4 ≤ x.abs) (hu : x.abs < 1e16) :
    ∃ text, ReadsAs text x.abs ∧
      (displayText x = text ∧ x = x.abs ∨ displayText x = '-' :: text ∧ x = -x.abs) := by
  obtain ⟨s, m, e, h, hx, hlo, hhi⟩ := exists_of_moderate hl hu
  have ha : x.abs = .ofModel (.pack (.finite .positive m e h.pos)) := by
    change Float.ofModel (.pack x.toModel.unpack.abs) = _
    rw [hx]
    rfl
  have ht : ∃ text, ReadsAs text x.abs ∧ displayText x = signed s text := by
    unfold displayText displayedInteger? numberText
    rw [hx]
    simp only
    cases hw : wholeValue? m e with
    | none => exact ⟨_, readsAs_text h hlo hhi ha, rfl⟩
    | some n =>
      simp only
      by_cases hn : n < exactIntegerLimit
      · rw [if_pos hn]
        exact ⟨_, ha ▸ readsAs_toDigits h hlo hw, rfl⟩
      · rw [if_neg hn]
        exact ⟨_, readsAs_text h hlo hhi ha, rfl⟩
  obtain ⟨text, hr, hd⟩ := ht
  refine ⟨text, hr, ?_⟩
  have hp := eq_pack hx
  cases s with
  | positive => exact .inl ⟨hd, hp.trans ha.symm⟩
  | negative => exact .inr ⟨hd, by rw [ha, neg_pack h]; exact hp⟩

theorem beq_zero_iff (x : Float) : (x == 0) = true ↔ x = 0 ∨ x = -0 := by
  have h0 : (0 : Float) ≠ Float.nan := by decide
  have hn : (-0 : Float) ≠ Float.nan := by decide
  have hz : (0 : Float) ≠ -0 := by decide
  rw [Float.beq_iff_ne_nan_and_eq]
  constructor
  · rintro ⟨-, -, h | ⟨-, h⟩ | ⟨h, -⟩⟩
    · exact .inl h
    · exact absurd h hz
    · exact .inr h
  · rintro (rfl | rfl)
    · exact ⟨h0, h0, .inl rfl⟩
    · exact ⟨hn, h0, .inr (.inr ⟨rfl, rfl⟩)⟩

theorem displayText_of_zero {x : Float} (h : (x == 0) = true) : displayText x = ['0'] := by
  obtain rfl | rfl := (beq_zero_iff x).1 h <;> decide

theorem ne_zero_of_moderate {x : Float} (hl : 1e-4 ≤ x.abs) : (x == 0) = false := by
  rw [Bool.eq_false_iff, ne_eq, beq_zero_iff]
  rintro (rfl | rfl)
  · exact absurd hl (by decide +kernel)
  · exact absurd hl (by decide +kernel)

namespace Session

theorem evaluate_of_isPlain {s : Session} (hs : 2 ≤ s.levels) {x : Float} (hx : IsPlain x) :
    s.evaluate (displayText x) = ([.ok (if x == 0 then 0 else x)], s) := by
  obtain hz | ⟨hl, hu⟩ := hx
  · rw [displayText_of_zero hz, if_pos hz]
    have hn : IsNumeral ['0'] := isNumeral_whole (List.forall_mem_singleton.2 (by decide)) (by decide)
    exact s.evaluate_numeral (by omega) ⟨hn, ⟨0, 0⟩, by decide, rfl⟩
  · have hz := ne_zero_of_moderate hl
    rw [hz, if_neg (by decide)]
    obtain ⟨text, hr, ⟨hd, hx⟩ | ⟨hd, hx⟩⟩ := exists_readsAs hl hu
    · rw [hd, s.evaluate_numeral (by omega) hr, ← hx]
    · rw [hd, s.evaluate_minus_numeral hs hr, ← hx]

/-- A result that is displayed without an exponent may be typed in again. It comes out as it was, apart from the sign
of zero; nothing is reported, and no variable is changed. So no two of these numbers but the zeros look the same. -/
theorem evaluate_displayText {s : Session} (hs : 2 ≤ s.levels) {x : Float} (hx : IsPlain x) :
    s.evaluate (displayText x) = ([.ok (if x == 0 then 0 else x)], s) ∧
      ∀ y, IsPlain y → displayText y = displayText x → y = x ∨ (y == 0) = true ∧ (x == 0) = true := by
  have hex := evaluate_of_isPlain hs hx
  refine ⟨hex, fun y hy hd => ?_⟩
  have hey := evaluate_of_isPlain hs hy
  rw [hd, hex] at hey
  have hv : (if x == 0 then 0 else x) = (if y == 0 then 0 else y) := by simpa using hey
  have h0 : ((0 : Float) == 0) = true := by decide
  by_cases hx0 : (x == 0) = true
  · by_cases hy0 : (y == 0) = true
    · exact .inr ⟨hy0, hx0⟩
    · rw [if_pos hx0, if_neg hy0] at hv
      exact absurd (hv ▸ h0) hy0
  · by_cases hy0 : (y == 0) = true
    · rw [if_neg hx0, if_pos hy0] at hv
      exact absurd (hv ▸ h0) hx0
    · rw [if_neg hx0, if_neg hy0] at hv
      exact .inl hv.symm

theorem evaluate_displayText_tenth :
    2 ≤ ({} : Session).levels ∧ IsPlain (-0.1) ∧
      Session.evaluate {} (displayText (-0.1)) = ([.ok (-0.1)], {}) := by
  have hl : 2 ≤ ({} : Session).levels := by decide
  have hx : IsPlain (-0.1) := .inr ⟨by decide +kernel, by decide +kernel⟩
  refine ⟨hl, hx, ?_⟩
  rw [(evaluate_displayText hl hx).1, if_neg (by decide +kernel)]

end Session

end DeskCalculator
