import DeskCalculator.Decimal.Layout
import DeskCalculator.Proofs.Decimal.Shortest
import DeskCalculator.Proofs.Lexicon.Numeral

set_option autoImplicit false

namespace DeskCalculator

theorem Text.isAsciiDigit_of_isDigit {c : Char} (h : c.isDigit = true) : isAsciiDigit c = true := by
  rw [isAsciiDigit_iff]
  simpa [Char.isDigit, UInt32.le_iff_toNat_le] using h

theorem Text.isAsciiDigit_toDigits (n : ℕ) : ∀ c ∈ Nat.toDigits 10 n, isAsciiDigit c = true :=
  fun _ hc => isAsciiDigit_of_isDigit (Nat.isDigit_of_mem_toDigits (by decide) (by decide) hc)

theorem Text.isAsciiDigit_zeros (n : ℕ) : ∀ c ∈ List.replicate n '0', isAsciiDigit c = true :=
  fun _ hc => List.eq_of_mem_replicate hc ▸ by decide

namespace Decimal

open Text

theorem log_value {d : Decimal} (h : 0 < d.digits) :
    Int.log 10 d.value = d.exponent + (Nat.toDigits 10 d.digits).length - 1 := by
  have hl : Int.log 10 d.value = Int.log 10 (d.digits : ℚ) + d.exponent :=
    Binary64.log_mul_zpow (by decide) (by exact_mod_cast h) d.exponent
  rw [hl, Int.log_natCast, length_toDigits h]
  push_cast
  ring

theorem ofNumeral?_eq {whole : List Char} (hn : whole ≠ []) (fraction : List Char) :
    ofNumeral? whole fraction =
      some ⟨Nat.ofDigitChars 10 (whole ++ fraction) 0, -(fraction.length : ℤ)⟩ := by
  cases whole with
  | nil => exact absurd rfl hn
  | cons c cs => rfl

theorem exists_ofLexeme?_plainText {d : Decimal} {places : ℤ}
    (hp : places = d.exponent + (Nat.toDigits 10 d.digits).length) :
    IsNumeral (plainText (Nat.toDigits 10 d.digits) places) ∧
      ∃ d', ofLexeme? (plainText (Nat.toDigits 10 d.digits) places) = some d' ∧ d'.value = d.value ∧
        (d'.exponent = d.exponent ∨ d'.exponent = -1) := by
  have hds := isAsciiDigit_toDigits d.digits
  have hne : Nat.toDigits 10 d.digits ≠ [] := Nat.toDigits_ne_nil
  have hval : Nat.ofDigitChars 10 (Nat.toDigits 10 d.digits) 0 = d.digits := Nat.ofDigitChars_ten_toDigits
  have h0 : ∀ c ∈ ['0'], isAsciiDigit c = true := List.forall_mem_singleton.2 (by decide)
  generalize Nat.toDigits 10 d.digits = ds at hp hds hne hval
  unfold plainText
  split_ifs with h₁ h₂
  · -- Zeros stand before the digits, and none behind them.
    have hf : ∀ c ∈ List.replicate (-places).toNat '0' ++ ds, isAsciiDigit c = true :=
      List.forall_mem_append.2 ⟨isAsciiDigit_zeros _, hds⟩
    have hd : Nat.ofDigitChars 10 (['0'] ++ (List.replicate (-places).toNat '0' ++ ds)) 0 = d.digits := by
      simp [Nat.ofDigitChars_append, Nat.ofDigitChars_cons, Nat.ofDigitChars_replicate_zero, hval]
    have he : -((List.replicate (-places).toNat '0' ++ ds).length : ℤ) = d.exponent := by
      rw [List.length_append, List.length_replicate]
      omega
    refine ⟨isNumeral_point h0 hf (.inl (by simp)), d, ?_, rfl, .inl rfl⟩
    refine (ofLexeme?_point (not_mem_of_isAsciiDigit h0) _).trans ((ofNumeral?_eq (by simp) _).trans ?_)
    rw [hd, he]
  · -- Zeros stand behind the digits, the last of them behind the point.
    have hw : ∀ c ∈ ds ++ List.replicate (places.toNat - ds.length) '0', isAsciiDigit c = true :=
      List.forall_mem_append.2 ⟨hds, isAsciiDigit_zeros _⟩
    have hd : Nat.ofDigitChars 10 (ds ++ List.replicate (places.toNat - ds.length) '0' ++ ['0']) 0 =
        10 * (10 ^ (places.toNat - ds.length) * d.digits) := by
      simp [Nat.ofDigitChars_append, Nat.ofDigitChars_cons, Nat.ofDigitChars_replicate_zero, hval]
    have he : d.exponent = (places.toNat - ds.length : ℕ) := by omega
    have hn : ds ++ List.replicate (places.toNat - ds.length) '0' ≠ [] := by simp [hne]
    refine ⟨isNumeral_point hw h0 (.inl hn), _,
      (ofLexeme?_point (not_mem_of_isAsciiDigit hw) _).trans (ofNumeral?_eq hn _), ?_, .inr rfl⟩
    simp only [value, hd, he, zpow_natCast]
    norm_num
    ring
  · -- The point parts the digits.
    have hw : ∀ c ∈ ds.take places.toNat, isAsciiDigit c = true := fun c hc => hds c (List.mem_of_mem_take hc)
    have hf : ∀ c ∈ ds.drop places.toNat, isAsciiDigit c = true := fun c hc => hds c (List.mem_of_mem_drop hc)
    have hn : ds.take places.toNat ≠ [] := by
      rw [ne_eq, List.take_eq_nil_iff, not_or]
      exact ⟨by omega, hne⟩
    have he : -((ds.drop places.toNat).length : ℤ) = d.exponent := by
      rw [List.length_drop]
      omega
    refine ⟨isNumeral_point hw hf (.inl hn), d, ?_, rfl, .inl rfl⟩
    refine (ofLexeme?_point (not_mem_of_isAsciiDigit hw) _).trans ((ofNumeral?_eq hn _).trans ?_)
    rw [List.take_append_drop, hval, he]

/-- The text of a moderate decimal is a numeral, and is read as the decimal is. -/
theorem IsModerate.exists_ofLexeme?_text {d : Decimal} (h : d.IsModerate) (hu : d.value < 10 ^ (16 : ℤ)) :
    IsNumeral d.text ∧ ∃ d', ofLexeme? d.text = some d' ∧ d'.toFloat = d.toFloat := by
  have hp := digits_pos h.value_pos
  have hl := log_value hp
  have h4 : -4 ≤ Int.log 10 d.value :=
    (Int.zpow_le_iff_le_log (by decide) h.value_pos).1 (by exact_mod_cast h.le_value)
  have h16 : Int.log 10 d.value < 16 := (Int.lt_zpow_iff_log_lt (by decide) h.value_pos).1 (by exact_mod_cast hu)
  rw [hl] at h4 h16
  have ht : d.text = plainText (Nat.toDigits 10 d.digits)
      (d.exponent + (Nat.toDigits 10 d.digits).length - 1 + 1) := if_pos ⟨h4, h16⟩
  obtain ⟨hn, d', hd', hv, he⟩ := exists_ofLexeme?_plainText (sub_add_cancel _ 1)
  rw [ht]
  refine ⟨hn, d', hd', IsModerate.toFloat_congr ⟨?_, ?_, hv ▸ h.le_value⟩ h hv⟩
  · have := h.le_exponent
    omega
  · have := h.exponent_le
    omega

end Decimal

end DeskCalculator
