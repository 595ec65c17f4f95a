import DeskCalculator.Proofs.Binary64.Rounding

set_option autoImplicit false

namespace DeskCalculator.Binary64

open Float.Model Float.Model.UnpackedFloat

variable {s : Sign} {m m' : ℕ} {e e' : ℤ}

theorem value_lt_value_of_mantissa (e : ℤ) (hm : m < m') : value m e < value m' e :=
  mul_lt_mul_of_pos_right (by exact_mod_cast hm) (zpow_pos (by norm_num) e)

theorem value_lt_value_of_exponent (h : IsNormal m e) (h' : IsNormal m' e') (he : e < e') :
    value m e < value m' e' := by
  have hm : (m : ℚ) < 2 ^ 53 := by exact_mod_cast h.mantissa_lt
  have hm' : (2 : ℚ) ^ 52 ≤ m' := by exact_mod_cast h'.le_mantissa
  have hp : (0 : ℚ) < 2 ^ e := zpow_pos (by norm_num) e
  have hp' : (0 : ℚ) < 2 ^ e' := zpow_pos (by norm_num) e'
  calc (m : ℚ) * 2 ^ e
    _ < 2 ^ 53 * 2 ^ e := mul_lt_mul_of_pos_right hm hp
    _ = 2 ^ 52 * 2 ^ (e + 1) := by rw [zpow_add_one₀ two_ne_zero]; ring
    _ ≤ 2 ^ 52 * 2 ^ e' := by
      refine mul_le_mul_of_nonneg_left (zpow_le_zpow_right₀ (by norm_num) (by omega)) (by positivity)
    _ ≤ m' * 2 ^ e' := mul_le_mul_of_nonneg_right hm' hp'.le

theorem compare_eq (h : IsNormal m e) (h' : IsNormal m' e') :
    (compare e e').then (compare m m') = compare (value m e) (value m' e') := by
  obtain he | rfl | he := lt_trichotomy e e'
  · rw [compare_lt_iff_lt.2 he, compare_lt_iff_lt.2 (value_lt_value_of_exponent h h' he)]
    rfl
  · rw [compare_eq_iff_eq.2 rfl]
    obtain hm | rfl | hm := lt_trichotomy m m'
    · rw [compare_lt_iff_lt.2 hm, compare_lt_iff_lt.2 (value_lt_value_of_mantissa e hm)]
      rfl
    · rw [compare_eq_iff_eq.2 rfl, compare_eq_iff_eq.2 rfl]
      rfl
    · rw [compare_gt_iff_gt.2 hm, compare_gt_iff_gt.2 (value_lt_value_of_mantissa e hm)]
      rfl
  · rw [compare_gt_iff_gt.2 he, compare_gt_iff_gt.2 (value_lt_value_of_exponent h' h he)]
    rfl

theorem compare_positive (h : IsNormal m e) (h' : IsNormal m' e') :
    UnpackedFloat.compare (.finite .positive m e h.pos) (.finite .positive m' e' h'.pos) =
      some (compare (value m e) (value m' e')) :=
  congrArg some (compare_eq h h')

theorem unpack_abs {x : Float} {hm : 0 < m} (hx : x.toModel.unpack = .finite s m e hm) :
    x.abs.toModel.unpack = .finite .positive m e hm := by
  have ha : x.abs.toModel.unpack =
      UnpackedFloat.unpack Format.binary64 (UnpackedFloat.pack Format.binary64 x.toModel.unpack.abs) := rfl
  rw [ha, hx]
  obtain hn | ⟨hl, rfl⟩ := unpack_cases hx
  · exact unpack_pack_of_isNormal hn
  · exact unpack_pack_of_lt hm hl

theorem le_iff {x y : Float} (h : IsNormal m e) (h' : IsNormal m' e')
    (hx : x.toModel.unpack = .finite .positive m e h.pos) (hy : y.toModel.unpack = .finite .positive m' e' h'.pos) :
    x ≤ y ↔ value m e ≤ value m' e' := by
  have hc : x ≤ y ↔ x.toModel.unpack.le y.toModel.unpack = true := by
    change decide (x.toModel.unpack.le y.toModel.unpack = true) = true ↔ _
    rw [decide_eq_true_iff]
  rw [hc, hx, hy, UnpackedFloat.le, compare_positive h h', Option.any_some, ← not_lt,
    ← compare_gt_iff_gt]
  cases compare (value m e) (value m' e') <;> simp

theorem lt_iff {x y : Float} (h : IsNormal m e) (h' : IsNormal m' e')
    (hx : x.toModel.unpack = .finite .positive m e h.pos) (hy : y.toModel.unpack = .finite .positive m' e' h'.pos) :
    x < y ↔ value m e < value m' e' := by
  have hc : x < y ↔ x.toModel.unpack.lt y.toModel.unpack = true := by
    change decide (x.toModel.unpack.lt y.toModel.unpack = true) = true ↔ _
    rw [decide_eq_true_iff]
  rw [hc, hx, hy, UnpackedFloat.lt, compare_positive h h', ← compare_lt_iff_lt]
  simp

theorem neg_pack (h : IsNormal m e) :
    -(Float.ofModel (.pack (.finite .positive m e h.pos))) = .ofModel (.pack (.finite .negative m e h.pos)) :=
  congrArg (fun f => Float.ofModel (.pack (UnpackedFloat.neg f))) (unpack_pack_of_isNormal h)

theorem lower_eq : (1e-4 : Float) = .ofModel (.pack (.finite .positive 7378697629483821 (-66) (by decide))) := by
  decide +kernel

theorem upper_eq : (1e16 : Float) = .ofModel (.pack (.finite .positive 5000000000000000 1 (by decide))) := by
  decide +kernel

/-- A number in the range is finite, its mantissa has all its bits, and its value is in the range. -/
theorem exists_of_moderate {x : Float} (hl : 1e-4 ≤ x.abs) (hu : x.abs < 1e16) :
    ∃ (s : Sign) (m : ℕ) (e : ℤ) (h : IsNormal m e), x.toModel.unpack = .finite s m e h.pos ∧
      10 ^ (-4 : ℤ) ≤ value m e ∧ value m e < 10 ^ (16 : ℤ) := by
  have ha : x.abs = .ofModel (.pack x.toModel.unpack.abs) := rfl
  cases hx : x.toModel.unpack with
  | notANumber =>
    rw [ha, hx] at hl
    exact absurd hl (by decide +kernel)
  | infinity s =>
    rw [ha, hx] at hu
    change Float.ofModel (.pack (.infinity .positive)) < 1e16 at hu
    exact absurd hu (by decide +kernel)
  | zero s =>
    rw [ha, hx] at hl
    change 1e-4 ≤ Float.ofModel (.pack (.zero .positive)) at hl
    exact absurd hl (by decide +kernel)
  | finite s m e hm =>
    have hxa := unpack_abs hx
    have hnl : IsNormal 7378697629483821 (-66) := by constructor <;> decide
    have hnu : IsNormal 5000000000000000 1 := by constructor <;> decide
    have hul : (1e-4 : Float).toModel.unpack = .finite .positive 7378697629483821 (-66) hnl.pos :=
      lower_eq ▸ unpack_pack_of_isNormal hnl
    have huu : (1e16 : Float).toModel.unpack = .finite .positive 5000000000000000 1 hnu.pos :=
      upper_eq ▸ unpack_pack_of_isNormal hnu
    obtain h | ⟨-, rfl⟩ := unpack_cases hx
    · refine ⟨s, m, e, h, rfl, ?_, ?_⟩
      · refine le_trans ?_ ((le_iff hnl h hul hxa).1 hl)
        norm_num [value]
      · refine lt_of_lt_of_le ((lt_iff h hnu hxa huu).1 hu) ?_
        norm_num [value]
    · have hc : (UnpackedFloat.finite .positive 7378697629483821 (-66) hnl.pos).le
          (.finite .positive m (-1074) hm) = true := by
        rw [← hul, ← hxa]
        exact of_decide_eq_true hl
      have hgt : compare (-66 : ℤ) (-1074) = .gt := by decide
      simp [UnpackedFloat.le, UnpackedFloat.compare, hgt] at hc

end DeskCalculator.Binary64
