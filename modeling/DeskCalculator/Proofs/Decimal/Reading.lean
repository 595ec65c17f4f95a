import DeskCalculator.Decimal.Basic
import DeskCalculator.Proofs.Binary64.Rounding

set_option autoImplicit false

namespace DeskCalculator

open Float.Model Float.Model.UnpackedFloat Binary64

theorem Binary64.power_eq : ∀ k : Fin 23, Float.exactlyRepresentablePowersOfTen[k.val]? =
    some (.ofModel (.pack (UnpackedFloat.ofNat Format.binary64 (10 ^ k.val)))) := by
  decide +kernel

namespace Decimal

def value (d : Decimal) : ℚ := d.digits * 10 ^ d.exponent

theorem value_of_neg {d : Decimal} (h : d.exponent < 0) :
    d.value = d.digits / (10 ^ d.exponent.natAbs : ℕ) := by
  have he : d.exponent = -(d.exponent.natAbs : ℤ) := by omega
  rw [value]
  conv_lhs => rw [he]
  rw [zpow_neg, zpow_natCast, div_eq_mul_inv]
  push_cast
  rfl

theorem value_of_nonneg {d : Decimal} (h : 0 ≤ d.exponent) :
    d.value = d.digits * (10 ^ d.exponent.natAbs : ℕ) := by
  have he : d.exponent = (d.exponent.natAbs : ℤ) := by omega
  rw [value]
  conv_lhs => rw [he]
  rw [zpow_natCast]
  push_cast
  rfl

theorem exists_unpack_power {k : ℕ} (hk : k ≤ 22) :
    ∃ (m : ℕ) (e : ℤ) (hm : IsNormal m e),
      (Float.Model.pack (UnpackedFloat.ofNat Format.binary64 (10 ^ k))).unpack = .finite .positive m e hm.pos ∧
        Binary64.value m e = (10 ^ k : ℕ) := by
  refine exists_unpack_ofNat (n := 5 ^ k) (k := k) (by positivity) ?_ (by omega) (by omega) ?_
  · calc 5 ^ k
      _ ≤ 5 ^ 22 := Nat.pow_le_pow_right (by decide) hk
      _ < 2 ^ 53 := by decide
  · rw [Binary64.value, zpow_natCast]
    push_cast
    rw [← mul_pow]
    norm_num

theorem exists_unpack_digits {n : ℕ} (hn : 0 < n) (h : n < 2 ^ 53) :
    ∃ (m : ℕ) (e : ℤ) (hm : IsNormal m e),
      n.toUInt64.toFloat.toModel.unpack = .finite .positive m e hm.pos ∧ Binary64.value m e = n := by
  have hu : n.toUInt64.toNat = n := Nat.mod_eq_of_lt (by omega)
  have h0 : (n : ℚ) = Binary64.value n 0 := by simp [Binary64.value]
  obtain ⟨m, e, hm, hx, hv⟩ := exists_unpack_ofNat hn h (by decide) (by decide) h0
  refine ⟨m, e, hm, ?_, hv⟩
  rw [← hx]
  change (Float.Model.pack (UnpackedFloat.ofNat Format.binary64 n.toUInt64.toNat)).unpack = _
  rw [hu]

theorem toFloat_quick {d : Decimal} (hd : 0 < d.digits) (h : d.digits < 2 ^ 53 ∧ d.exponent.natAbs ≤ 22)
    (hv : -1022 ≤ Int.log 2 d.value) : d.toFloat = .ofModel (.pack (nearest .positive d.value)) := by
  obtain ⟨m, e, hm, hx, hmv⟩ := exists_unpack_digits hd h.1
  obtain ⟨m', e', hm', hx', hmv'⟩ := exists_unpack_power h.2
  obtain ⟨_, hp⟩ := Array.getElem?_eq_some_iff.1 (power_eq ⟨d.exponent.natAbs, by omega⟩)
  rw [toFloat, Float.ofScientific, dif_pos h]
  simp only [hp, decide_eq_true_eq]
  split_ifs with he
  · rw [value_of_neg he, ← hmv, ← hmv'] at hv ⊢
    have hr := div_eq_nearest .positive .positive e e' hm.pos hm'.pos hv
    rw [← hx, ← hx'] at hr
    exact congrArg (fun f => Float.ofModel (.pack f)) hr
  · have hw : 2 ^ 52 ≤ m * m' := le_trans hm.le_mantissa (Nat.le_mul_of_pos_right m hm'.pos)
    rw [value_of_nonneg (by omega), ← hmv, ← hmv']
    have hr := mul_eq_nearest .positive .positive e e' hm.pos hm'.pos hw
    rw [← hx, ← hx'] at hr
    exact congrArg (fun f => Float.ofModel (.pack f)) hr

theorem toFloat_slow {d : Decimal} (hd : 0 < d.digits) (h : ¬ (d.digits < 2 ^ 53 ∧ d.exponent.natAbs ≤ 22))
    (hl : -2048 ≤ d.exponent) (hu : d.exponent ≤ 2048)
    (hv : -1022 ≤ Int.log 2 d.value) : d.toFloat = .ofModel (.pack (nearest .positive d.value)) := by
  have he : (if d.exponent < 0 then Int.negOfNat d.exponent.natAbs else Int.ofNat d.exponent.natAbs) = d.exponent := by
    split_ifs with hn
    · rw [Int.negOfNat_eq, Int.ofNat_eq_natCast]
      omega
    · rw [Int.ofNat_eq_natCast]
      omega
  have hp : 0 < 10 ^ d.exponent.natAbs := by positivity
  rw [toFloat, Float.ofScientific, dif_neg h]
  simp only [decide_eq_true_eq, he]
  -- The exponent is neither so large nor so small that the digits are not looked at.
  have h2048 : (2 : ℤ) ^ Format.binary64.exponentBits = 2048 := by decide
  have hu' : ¬ d.exponent > 2 ^ Format.binary64.exponentBits := by omega
  have hl' : ¬ d.exponent < -(2 ^ Format.binary64.exponentBits + (d.digits.log2 : ℤ)) := by omega
  rw [Float.Model.ofScientific, UnpackedFloat.ofScientific, dif_neg hd.ne', if_neg hu', if_neg hl']
  split_ifs with hn
  · have hs : 0 < d.digits <<< 53 := by
      rw [Nat.shiftLeft_eq]
      positivity
    have hw : 2 ^ 52 ≤ d.digits <<< 53 * 10 ^ d.exponent.toNat := by
      rw [Nat.shiftLeft_eq]
      calc 2 ^ 52
        _ ≤ 2 ^ 53 := by decide
        _ ≤ d.digits * 2 ^ 53 := Nat.le_mul_of_pos_left _ hd
        _ ≤ d.digits * 2 ^ 53 * 10 ^ d.exponent.toNat := Nat.le_mul_of_pos_right _ (Nat.pow_pos (by decide))
    have hr := mul_eq_nearest .positive .positive (0 - (53 : ℕ)) 0 hs (Nat.pow_pos (by decide)) hw
    have hv' : Binary64.value (d.digits <<< 53) (0 - (53 : ℕ)) * Binary64.value (10 ^ d.exponent.toNat) 0 =
        d.value := by
      rw [value_shiftLeft, value_of_nonneg hn, show d.exponent.toNat = d.exponent.natAbs by omega]
      simp [Binary64.value]
    rw [hv'] at hr
    exact congrArg (fun f => Float.ofModel (.pack f)) hr
  · have hv' : Binary64.value d.digits 0 / Binary64.value (10 ^ (-d.exponent).toNat) 0 = d.value := by
      rw [value_of_neg (by omega), show (-d.exponent).toNat = d.exponent.natAbs by omega]
      simp [Binary64.value]
    have hr := div_eq_nearest .positive .positive 0 0 hd (Nat.pow_pos (by decide)) (hv' ▸ hv)
    rw [hv'] at hr
    exact congrArg (fun f => Float.ofModel (.pack f)) hr

/-- A decimal is read as the number nearest to its value. -/
theorem toFloat_eq_nearest {d : Decimal} (hd : 0 < d.digits) (hl : -2048 ≤ d.exponent) (hu : d.exponent ≤ 2048)
    (hv : -1022 ≤ Int.log 2 d.value) : d.toFloat = .ofModel (.pack (nearest .positive d.value)) := by
  by_cases h : d.digits < 2 ^ 53 ∧ d.exponent.natAbs ≤ 22
  · exact toFloat_quick hd h hv
  · exact toFloat_slow hd h hl hu hv

end Decimal

end DeskCalculator
