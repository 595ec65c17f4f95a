import DeskCalculator.Proofs.Binary64.Packing

/-!
Rounding to binary64. Main statement: a product, a quotient and an integer are rounded to a number that depends on
nothing but the exact value, however it is given. A number of binary64 is rounded to itself.
-/
set_option autoImplicit false

namespace DeskCalculator.Binary64

open Float.Model Float.Model.UnpackedFloat

theorem log_eq_iff {b : ℕ} (hb : 1 < b) {q : ℚ} (hq : 0 < q) {k : ℤ} :
    Int.log b q = k ↔ (b : ℚ) ^ k ≤ q ∧ q < (b : ℚ) ^ (k + 1) := by
  rw [Int.zpow_le_iff_le_log hb hq, Int.lt_zpow_iff_log_lt hb hq]
  omega

theorem log_mul_zpow {b : ℕ} (hb : 1 < b) {q : ℚ} (hq : 0 < q) (e : ℤ) :
    Int.log b (q * (b : ℚ) ^ e) = Int.log b q + e := by
  have hb' : (0 : ℚ) < b := by exact_mod_cast Nat.zero_lt_of_lt hb
  have hp : (0 : ℚ) < (b : ℚ) ^ e := zpow_pos hb' e
  refine (log_eq_iff hb (mul_pos hq hp)).2 ⟨?_, ?_⟩
  · rw [zpow_add₀ hb'.ne']
    exact mul_le_mul_of_nonneg_right (Int.zpow_log_le_self hb hq) hp.le
  · rw [add_right_comm, zpow_add₀ hb'.ne']
    exact mul_lt_mul_of_pos_right (Int.lt_zpow_succ_log_self hb q) hp

/-- A number with all the bits behind the last that is kept: the first of them, and whether there are others. -/
def extended (r : ℚ) : ExtendedMantissa where
  mantissa := ⌊r⌋₊
  roundBit := ⌊2 * r⌋₊ % 2 != 0
  stickyBit := decide ((⌊2 * r⌋₊ : ℚ) ≠ 2 * r)

theorem extended_natCast (n : ℕ) : extended n = .ofMantissaAndAccuracy n .exact := by
  have h : ⌊(2 * n : ℚ)⌋₊ = 2 * n := by exact_mod_cast Nat.floor_natCast (R := ℚ) (2 * n)
  simp [extended, ExtendedMantissa.ofMantissaAndAccuracy, h]

/-- Nothing stands behind the point of a half if nothing does behind that of the whole, and the whole is even. -/
theorem floor_half_eq_iff (r : ℚ) : (⌊r⌋₊ : ℚ) = r ↔ ⌊2 * r⌋₊ % 2 = 0 ∧ (⌊2 * r⌋₊ : ℚ) = 2 * r := by
  constructor
  · intro h
    have h2 : ⌊2 * r⌋₊ = 2 * ⌊r⌋₊ := by
      conv_lhs => rw [← h]
      exact_mod_cast Nat.floor_natCast (R := ℚ) (2 * ⌊r⌋₊)
    rw [h2]
    exact ⟨Nat.mul_mod_right 2 _, by push_cast; rw [h]⟩
  · rintro ⟨he, h2⟩
    obtain ⟨k, hk⟩ := Nat.dvd_of_mod_eq_zero he
    rw [hk] at h2
    obtain rfl : (k : ℚ) = r := by
      push_cast at h2
      linarith
    rw [Nat.floor_natCast]

theorem shiftRightOne_extended (r : ℚ) : (extended r).shiftRightOne = extended (r / 2) := by
  have h2 : 2 * (r / 2) = r := by ring
  have hs : (⌊2 * r⌋₊ % 2 != 0 || decide ((⌊2 * r⌋₊ : ℚ) ≠ 2 * r)) = decide ((⌊r⌋₊ : ℚ) ≠ r) := by
    rw [Bool.eq_iff_iff]
    simp only [Bool.or_eq_true, bne_iff_ne, decide_eq_true_eq, ne_eq, floor_half_eq_iff r]
    tauto
  rw [extended, ExtendedMantissa.shiftRightOne, extended, h2, ← hs, Nat.floor_div_ofNat]

theorem shiftRight_extended (r : ℚ) (n : ℕ) : extended r >>> n = extended (r / 2 ^ n) := by
  change n.repeat ExtendedMantissa.shiftRightOne (extended r) = _
  induction n with
  | zero => simp [Nat.repeat]
  | succ n ih =>
    rw [Nat.repeat, ih, shiftRightOne_extended, div_div, pow_succ]

theorem natCast_div_eq_iff {n d : ℕ} (hd : 0 < d) : ((n / d : ℕ) : ℚ) = n / d ↔ n % d = 0 := by
  have hq : (d : ℚ) ≠ 0 := by positivity
  have hn : (n : ℚ) = d * (n / d : ℕ) + (n % d : ℕ) := by exact_mod_cast (Nat.div_add_mod n d).symm
  rw [eq_div_iff hq, ← Nat.cast_eq_zero (R := ℚ)]
  constructor <;> intro h <;> linarith

theorem extended_div {n d : ℕ} (hd : 0 < d) :
    extended (n / d) = .ofMantissaAndAccuracy (n / d) (accuracyOfFraction (n % d) d) := by
  have hn := Nat.div_add_mod n d
  have hl := Nat.mod_lt n hd
  have h2 : (2 * (n / d) : ℚ) = (2 * n : ℕ) / d := by push_cast; ring
  have he : extended (n / d) = ⟨n / d, 2 * n / d % 2 != 0, decide (2 * n % d ≠ 0)⟩ := by
    simp only [extended, h2, Nat.floor_div_eq_div, ne_eq, natCast_div_eq_iff hd]
  rw [he]
  generalize n / d = k at hn
  generalize n % d = ρ at hn hl
  -- Twice the rest is to be divided by the divisor once or not at all.
  have hx : ∀ b c : ℕ, c + d * b = 2 * n → c < d → 2 * n / d = b ∧ 2 * n % d = c :=
    fun b c h h' => (Nat.div_mod_unique hd).2 ⟨h, h'⟩
  unfold accuracyOfFraction
  split_ifs with h0
  · obtain ⟨hq, hr⟩ := hx (2 * k) 0 (by linarith) hd
    simp [hq, hr, ExtendedMantissa.ofMantissaAndAccuracy]
  · obtain hc | hc | hc := Nat.lt_trichotomy (2 * ρ) d
    · obtain ⟨hq, hr⟩ := hx (2 * k) (2 * ρ) (by linarith) hc
      simp [hq, hr, h0, Nat.compare_eq_lt.2 hc, ExtendedMantissa.ofMantissaAndAccuracy]
    · obtain ⟨hq, hr⟩ := hx (2 * k + 1) 0 (by linarith) hd
      simp [hq, hr, Nat.compare_eq_eq.2 hc, ExtendedMantissa.ofMantissaAndAccuracy]
    · obtain ⟨hq, hr⟩ := hx (2 * k + 1) (2 * ρ - d) (by rw [Nat.mul_add_one, Nat.mul_left_comm]; omega) (by omega)
      have hr' : 2 * n % d ≠ 0 := by omega
      simp [hq, hr', Nat.compare_eq_gt.2 hc, ExtendedMantissa.ofMantissaAndAccuracy]

theorem log2_floor {q : ℚ} {e : ℤ} (h : 2 ^ e ≤ q) : (⌊q / 2 ^ e⌋₊.log2 : ℤ) + e = Int.log 2 q := by
  have he : (0 : ℚ) < 2 ^ e := zpow_pos (by norm_num) e
  have hq : 0 < q / 2 ^ e := div_pos (he.trans_le h) he
  calc (⌊q / 2 ^ e⌋₊.log2 : ℤ) + e
    _ = Int.log 2 (q / 2 ^ e) + e := by
      rw [Nat.log2_eq_log_two, Int.log_of_one_le_right 2 ((one_le_div he).2 h)]
    _ = Int.log 2 (q / 2 ^ e * 2 ^ e) := (log_mul_zpow (by decide) hq e).symm
    _ = Int.log 2 q := by rw [div_mul_cancel₀ _ he.ne']

/-- The exponent of the last bit that is kept of a number. -/
def grid (q : ℚ) : ℤ := Format.binary64.targetExponent (Int.log 2 q + 1)

/-- Rounds a number in units of its last bit. The mantissa may take one more bit then. -/
def settle (s : Sign) (em : ExtendedMantissa) (e : ℤ) : UnpackedFloat :=
  let shifted := shiftToTargetExponent Format.binary64 em.roundedMantissa e .exact
  if h : shifted.1.mantissa = 0 then .zero s
  else .finite s shifted.1.mantissa shifted.2 (Nat.pos_of_ne_zero h)

/-- The number of binary64 that is nearest to a positive number. -/
def nearest (s : Sign) (q : ℚ) : UnpackedFloat := settle s (extended (q / 2 ^ grid q)) (grid q)

theorem roundWithAccuracy_eq (s : Sign) (m : ℕ) (e : ℤ) (a : Accuracy) :
    roundWithAccuracy Format.binary64 s m e a =
      settle s (shiftToTargetExponent Format.binary64 m e a).1
        (shiftToTargetExponent Format.binary64 m e a).2 := rfl

theorem roundWithAccuracy_eq_nearest (s : Sign) {q : ℚ} {m : ℕ} {e : ℤ} {a : Accuracy}
    (h : extended (q / 2 ^ e) = .ofMantissaAndAccuracy m a) (hq : 2 ^ e ≤ q) (he : e ≤ grid q) :
    roundWithAccuracy Format.binary64 s m e a = nearest s q := by
  have hm : ⌊q / 2 ^ e⌋₊ = m := by
    have := congrArg ExtendedMantissa.mantissa h
    rw [extended] at this
    simp only at this
    rw [this]
    cases a with
    | exact => rfl
    | inexact o => cases o <;> rfl
  have ht : Format.binary64.targetExponent (totalExponent m e) = grid q := by
    rw [totalExponent, ← hm, grid, ← log2_floor hq]
    congr 1
    omega
  have hs : q / 2 ^ e / 2 ^ (grid q - e).toNat = q / 2 ^ grid q := by
    rw [div_div, ← zpow_natCast, ← zpow_add₀ (by norm_num), Int.toNat_of_nonneg (by omega)]
    congr 2
    omega
  rw [roundWithAccuracy_eq, shiftToTargetExponent, shiftToExponent, ht, ← h, nearest]
  simp only [shiftRight_extended, hs]
  congr 1
  omega

def value (m : ℕ) (e : ℤ) : ℚ := m * 2 ^ e

theorem targetExponent_eq (k : ℤ) : Format.binary64.targetExponent k = max (k - 53) (-1074) := rfl

theorem value_pos {m : ℕ} (hm : 0 < m) (e : ℤ) : 0 < value m e :=
  mul_pos (by exact_mod_cast hm) (zpow_pos (by norm_num) e)

theorem log_value {m : ℕ} (hm : 0 < m) (e : ℤ) : Int.log 2 (value m e) = m.log2 + e := by
  refine (log_mul_zpow (by decide) (by exact_mod_cast hm) e).trans ?_
  rw [Int.log_natCast, Nat.log2_eq_log_two]

theorem two_zpow_log_le {q : ℚ} (hq : 0 < q) {k : ℤ} (h : k ≤ Int.log 2 q) : (2 : ℚ) ^ k ≤ q :=
  (Int.zpow_le_iff_le_log (by decide) hq).2 h

/-- A number of binary64 is the nearest to itself. -/
theorem nearest_value {m : ℕ} {e : ℤ} (s : Sign) (h : IsNormal m e) :
    nearest s (value m e) = .finite s m e h.pos := by
  have he := h.le_exponent
  have hg : grid (value m e) = e := by
    rw [grid, log_value h.pos, h.log2_eq, targetExponent_eq]
    omega
  have hm : value m e / 2 ^ e = m := mul_div_cancel_right₀ _ (zpow_ne_zero _ (by norm_num))
  have ht : (Format.binary64.targetExponent (totalExponent m e) - e).toNat = 0 := by
    rw [totalExponent, h.log2_eq, targetExponent_eq]
    omega
  rw [nearest, hg, hm, extended_natCast, settle]
  have hr : (ExtendedMantissa.ofMantissaAndAccuracy m .exact).roundedMantissa = m := rfl
  have hs : shiftToTargetExponent Format.binary64 m e .exact = (.ofMantissaAndAccuracy m .exact, e) := by
    rw [shiftToTargetExponent, shiftToExponent, ht]
    exact Prod.ext rfl (add_zero e)
  simp only [hr, hs]
  exact dif_neg h.pos.ne'

/-- An exact mantissa that leaves nothing out when it is shifted to the grid. -/
theorem roundWithAccuracy_exact (s : Sign) {m : ℕ} {e : ℤ} (hm : 0 < m) (he : e ≤ grid (value m e)) :
    roundWithAccuracy Format.binary64 s m e .exact = nearest s (value m e) := by
  have hd : value m e / 2 ^ e = m := mul_div_cancel_right₀ _ (zpow_ne_zero _ (by norm_num))
  refine roundWithAccuracy_eq_nearest s (by rw [hd, extended_natCast]) ?_ he
  exact two_zpow_log_le (value_pos hm e) (by rw [log_value hm]; omega)

theorem mul_eq_nearest (s₁ s₂ : Sign) {m₁ m₂ : ℕ} (e₁ e₂ : ℤ) (h₁ : 0 < m₁) (h₂ : 0 < m₂)
    (h : 2 ^ 52 ≤ m₁ * m₂) :
    UnpackedFloat.mul Format.binary64 (.finite s₁ m₁ e₁ h₁) (.finite s₂ m₂ e₂ h₂) =
      nearest (s₁ * s₂) (value m₁ e₁ * value m₂ e₂) := by
  have hv : value (m₁ * m₂) (e₁ + e₂) = value m₁ e₁ * value m₂ e₂ := by
    simp only [value, zpow_add₀ (two_ne_zero' ℚ)]
    push_cast
    ring
  have hp := Nat.mul_pos h₁ h₂
  have hl : 52 ≤ (m₁ * m₂).log2 := (Nat.le_log2 hp.ne').2 h
  rw [← hv]
  refine roundWithAccuracy_exact _ hp ?_
  rw [grid, log_value hp, targetExponent_eq]
  omega

theorem log_sub_le_log_div {a b : ℚ} (ha : 0 < a) (hb : 0 < b) :
    Int.log 2 a - (Int.log 2 b + 1) ≤ Int.log 2 (a / b) := by
  have hl := two_zpow_log_le ha le_rfl
  have hu : b < 2 ^ (Int.log 2 b + 1) := ((log_eq_iff (by decide) hb).1 rfl).2
  refine (Int.zpow_le_iff_le_log (by decide) (div_pos ha hb)).1 ?_
  rw [le_div_iff₀ hb]
  calc ((2 : ℕ) : ℚ) ^ (Int.log 2 a - (Int.log 2 b + 1)) * b
    _ ≤ 2 ^ (Int.log 2 a - (Int.log 2 b + 1)) * 2 ^ (Int.log 2 b + 1) :=
      mul_le_mul_of_nonneg_left hu.le (zpow_pos (by norm_num) _).le
    _ = 2 ^ Int.log 2 a := by rw [← zpow_add₀ two_ne_zero, sub_add_cancel]
    _ ≤ a := hl

theorem div_eq_nearest (s₁ s₂ : Sign) {m₁ m₂ : ℕ} (e₁ e₂ : ℤ) (h₁ : 0 < m₁) (h₂ : 0 < m₂)
    (h : -1022 ≤ Int.log 2 (value m₁ e₁ / value m₂ e₂)) :
    UnpackedFloat.div Format.binary64 (.finite s₁ m₁ e₁ h₁) (.finite s₂ m₂ e₂ h₂) =
      nearest (s₁ / s₂) (value m₁ e₁ / value m₂ e₂) := by
  have hq : 0 < value m₁ e₁ / value m₂ e₂ := div_pos (value_pos h₁ e₁) (value_pos h₂ e₂)
  have hd := log_sub_le_log_div (value_pos h₁ e₁) (value_pos h₂ e₂)
  rw [log_value h₁, log_value h₂] at hd
  rw [UnpackedFloat.div, divCore]
  generalize ht : min (e₁ - e₂) (Format.binary64.targetExponent (totalExponent m₁ e₁ - totalExponent m₂ e₂)) = t
  have hm : value m₁ e₁ / value m₂ e₂ / 2 ^ t = (m₁ <<< (e₁ - e₂ - t).toNat : ℕ) / m₂ := by
    have h2 : (m₂ : ℚ) ≠ 0 := by exact_mod_cast h₂.ne'
    rw [Nat.shiftLeft_eq]
    push_cast
    rw [← zpow_natCast, Int.toNat_of_nonneg (by omega), zpow_sub₀ two_ne_zero, zpow_sub₀ two_ne_zero, value, value]
    field_simp
  have hg : t ≤ grid (value m₁ e₁ / value m₂ e₂) := by
    rw [grid, targetExponent_eq]
    rw [targetExponent_eq, totalExponent, totalExponent] at ht
    omega
  refine roundWithAccuracy_eq_nearest _ (by rw [hm, extended_div h₂]) (two_zpow_log_le hq ?_) hg
  rw [grid, targetExponent_eq] at hg
  omega

theorem value_shiftLeft (m k : ℕ) (e : ℤ) : value (m <<< k) (e - k) = value m e := by
  rw [value, Nat.shiftLeft_eq, zpow_sub₀ two_ne_zero, zpow_natCast, value]
  push_cast
  field_simp

theorem ofNat_eq_nearest {n : ℕ} (hn : 0 < n) : UnpackedFloat.ofNat Format.binary64 n = nearest .positive n := by
  have hc : compare (n : ℤ) 0 = .gt := Int.compare_eq_gt.2 (by exact_mod_cast hn)
  have hv : value n 0 = n := by simp [value]
  have hp : ∀ k : ℕ, 0 < n <<< k := fun k => by
    rw [Nat.shiftLeft_eq]
    positivity
  rw [UnpackedFloat.ofNat, UnpackedFloat.ofInt, UnpackedFloat.normalize, hc]
  simp only [UnpackedFloat.round, decreaseExponent, Int.toNat_natCast]
  rw [roundWithAccuracy_exact _ (hp _), value_shiftLeft, hv]
  simp only [value_shiftLeft, grid, log_value hn, totalExponent, targetExponent_eq]
  omega

/-- An integer of few bits, times a power of two, is a number of binary64. -/
theorem exists_isNormal {n : ℕ} {k : ℤ} (hn : 0 < n) (h : n < 2 ^ 53) (hk : -1022 ≤ k) (hk' : k ≤ 971) :
    ∃ m e, IsNormal m e ∧ value m e = value n k := by
  have hl : n.log2 < 53 := (Nat.log2_lt hn.ne').2 h
  obtain ⟨hlo, hhi⟩ := (Nat.log2_eq_iff hn.ne').1 rfl
  refine ⟨n <<< (52 - n.log2), k - (52 - n.log2 : ℕ), ⟨?_, ?_, by omega, by omega⟩, value_shiftLeft _ _ _⟩
  · rw [Nat.shiftLeft_eq]
    calc 2 ^ 52
      _ = 2 ^ n.log2 * 2 ^ (52 - n.log2) := by rw [← pow_add]; congr 1; omega
      _ ≤ n * 2 ^ (52 - n.log2) := Nat.mul_le_mul_right _ hlo
  · rw [Nat.shiftLeft_eq]
    calc n * 2 ^ (52 - n.log2)
      _ < 2 ^ (n.log2 + 1) * 2 ^ (52 - n.log2) := Nat.mul_lt_mul_of_pos_right hhi (by positivity)
      _ = 2 ^ 53 := by rw [← pow_add]; congr 1; omega

theorem exists_unpack_ofNat {a n : ℕ} {k : ℤ} (hn : 0 < n) (h : n < 2 ^ 53) (hk : -1022 ≤ k) (hk' : k ≤ 971)
    (ha : (a : ℚ) = value n k) :
    ∃ (m : ℕ) (e : ℤ) (hm : IsNormal m e),
      (Float.Model.pack (UnpackedFloat.ofNat Format.binary64 a)).unpack = .finite .positive m e hm.pos ∧
        value m e = a := by
  obtain ⟨m, e, hm, hv⟩ := exists_isNormal hn h hk hk'
  have hp : 0 < a := by
    have := value_pos hn k
    rw [← ha] at this
    exact_mod_cast this
  refine ⟨m, e, hm, ?_, hv.trans ha.symm⟩
  rw [ofNat_eq_nearest hp, ha, ← hv, nearest_value .positive hm]
  exact unpack_pack_of_isNormal hm

end DeskCalculator.Binary64
