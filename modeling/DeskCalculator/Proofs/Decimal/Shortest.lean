import DeskCalculator.Proofs.Decimal.Quotient
import DeskCalculator.Proofs.Decimal.Reading

/-!
The fewest digits that identify a number. Main statement: whatever decimal is chosen for a number, it is read back as
that number, and is not above the next power of ten.
-/
set_option autoImplicit false

namespace DeskCalculator

open Float.Model Float.Model.UnpackedFloat Binary64

theorem length_toDigits {n : ℕ} (hn : 0 < n) : (Nat.toDigits 10 n).length = Nat.log 10 n + 1 := by
  refine le_antisymm ((Nat.length_toDigits_le_iff (by decide) (by omega)).2 (Nat.lt_pow_succ_log_self (by decide) n)) ?_
  have hp : 0 < (Nat.toDigits 10 n).length := Nat.length_toDigits_pos
  by_contra hc
  have hl : (Nat.toDigits 10 n).length ≤ Nat.log 10 n := by omega
  have hlt := (Nat.length_toDigits_le_iff (by decide) (hp.trans_le hl)).1 hl
  exact absurd (Nat.pow_log_le_self 10 hn.ne') (by omega)

theorem zpow_eq_div {b : ℚ} (hb : b ≠ 0) (g : ℤ) : b ^ g = b ^ g.toNat / b ^ (-g).toNat := by
  have hg : g = g.toNat - (-g).toNat := by omega
  conv_lhs => rw [hg]
  rw [zpow_sub₀ hb, zpow_natCast, zpow_natCast]

namespace Quotient

def value (v : Quotient) : ℚ := v.num / v.den

theorem value_ofBinary (m : ℕ) (e : ℤ) : (ofBinary m e).value = Binary64.value m e := by
  rw [Binary64.value, zpow_eq_div two_ne_zero, value, ofBinary]
  simp only [Nat.pow_eq]
  push_cast
  rw [mul_div_assoc]

/-- The power of ten below a quotient less than one, from how many times the denominator holds the numerator. -/
theorem log_value_of_lt {v : Quotient} (hn : 0 < v.num) (h : v.num < v.den) :
    Int.log 10 v.value = -(Nat.log 10 ((v.den - 1) / v.num) + 1 : ℕ) := by
  have hd : (0 : ℚ) < v.den := by exact_mod_cast hn.trans h
  have ht : 0 < (v.den - 1) / v.num := Nat.div_pos (by omega) hn
  have hlo := Nat.pow_log_le_self 10 ht.ne'
  have hhi : (v.den - 1) / v.num < 10 ^ (Nat.log 10 ((v.den - 1) / v.num) + 1) :=
    Nat.lt_pow_succ_log_self (by decide) _
  generalize Nat.log 10 ((v.den - 1) / v.num) = l at hlo hhi
  rw [Nat.le_div_iff_mul_le hn] at hlo
  rw [Nat.div_lt_iff_lt_mul hn] at hhi
  have hlo' : (10 : ℚ) ^ l * v.num < v.den := by exact_mod_cast (by omega : 10 ^ l * v.num < v.den)
  have hhi' : (v.den : ℚ) ≤ 10 ^ (l + 1) * v.num := by exact_mod_cast (by omega : v.den ≤ 10 ^ (l + 1) * v.num)
  have hs : -((l + 1 : ℕ) : ℤ) + 1 = -(l : ℤ) := by omega
  refine (log_eq_iff (by decide) (div_pos (by exact_mod_cast hn) hd)).2 ⟨?_, ?_⟩
  · rw [zpow_neg, zpow_natCast, le_div_iff₀ hd]
    exact inv_mul_le_of_le_mul₀ (by positivity) (by positivity) hhi'
  · rw [hs, zpow_neg, zpow_natCast, div_lt_iff₀ hd, lt_inv_mul_iff₀ (by positivity)]
    exact hlo'

theorem scale_eq {v : Quotient} (hn : 0 < v.num) (hd : 0 < v.den) : v.scale = Int.log 10 v.value + 1 := by
  have hdq : (0 : ℚ) < v.den := by exact_mod_cast hd
  unfold scale
  split_ifs with h
  · have h1 : 1 ≤ v.value := (one_le_div hdq).2 (by exact_mod_cast h)
    rw [length_toDigits (Nat.div_pos h hd), Int.log_of_one_le_right 10 h1, value, Nat.floor_div_eq_div]
    push_cast
    rfl
  · have ht : 0 < (v.den - 1) / v.num := Nat.div_pos (by omega) hn
    rw [length_toDigits ht, log_value_of_lt hn (by omega)]
    omega

theorem floor_inUnits (v : Quotient) (g : ℤ) : (v.inUnits g).num / (v.inUnits g).den = ⌊v.value / 10 ^ g⌋₊ := by
  rw [← Nat.floor_div_eq_div (K := ℚ), zpow_eq_div (by norm_num : (10 : ℚ) ≠ 0), value, inUnits]
  simp only [Nat.pow_eq]
  push_cast
  rw [div_div_div_eq]

end Quotient

namespace Decimal

theorem value_trim (d : Decimal) : d.trim.value = d.value := by
  fun_induction trim d with
  | case1 d h ih =>
    have hd : d.digits = 10 * (d.digits / 10) := by omega
    rw [ih, value, value]
    conv_rhs => rw [hd]
    simp only
    rw [zpow_add_one₀ (by norm_num)]
    push_cast
    ring
  | case2 d h => rfl

theorem trim_spec (d : Decimal) (hd : 0 < d.digits) : 0 < d.trim.digits ∧ d.exponent ≤ d.trim.exponent := by
  fun_induction trim d with
  | case1 d h ih =>
    obtain ⟨h₁, h₂⟩ := ih (by simp only; omega)
    exact ⟨h₁, by simp only at h₂; omega⟩
  | case2 d h => exact ⟨hd, le_rfl⟩

theorem of_neighbour? {accepts : Decimal → Bool} {v : Quotient} {g : ℤ} {d : Decimal}
    (h : neighbour? accepts v g = some d) :
    accepts d = true ∧ d.exponent = g ∧ (d.digits = ⌊v.value / 10 ^ g⌋₊ ∨ d.digits = ⌊v.value / 10 ^ g⌋₊ + 1) := by
  have hf := v.floor_inUnits g
  rw [neighbour?] at h
  simp only [hf] at h
  split at h
  · cases h
  · rename_i hb _
    cases h
    exact ⟨hb, rfl, .inl rfl⟩
  · rename_i _ ha
    cases h
    exact ⟨ha, rfl, .inr rfl⟩
  · rename_i hb ha
    split at h
    · cases h
      exact ⟨hb, rfl, .inl rfl⟩
    · cases h
      exact ⟨ha, rfl, .inr rfl⟩
    · split at h <;> cases h
      · exact ⟨hb, rfl, .inl rfl⟩
      · exact ⟨ha, rfl, .inr rfl⟩

/-- A neighbour on a grid that is fine enough is not below the power of ten below the number, nor above that above. -/
theorem value_of_floor {q : ℚ} {g : ℤ} {d : Decimal} (hq : 0 < q) (hg : g ≤ Int.log 10 q) (he : d.exponent = g)
    (hd : d.digits = ⌊q / 10 ^ g⌋₊ ∨ d.digits = ⌊q / 10 ^ g⌋₊ + 1) :
    10 ^ Int.log 10 q ≤ d.value ∧ d.value ≤ 10 ^ (Int.log 10 q + 1) := by
  have hlo : (10 : ℚ) ^ Int.log 10 q ≤ q := by exact_mod_cast Int.zpow_log_le_self (b := 10) (by decide) hq
  have hhi : q < (10 : ℚ) ^ (Int.log 10 q + 1) := by exact_mod_cast Int.lt_zpow_succ_log_self (b := 10) (by decide) q
  obtain ⟨k, hk⟩ := Int.le.dest hg
  rw [← hk] at hlo hhi ⊢
  have hp : (0 : ℚ) < 10 ^ g := zpow_pos (by norm_num) g
  have h₁ : (10 : ℚ) ^ (g + k) = (10 ^ k : ℕ) * 10 ^ g := by
    rw [zpow_add₀ (by norm_num), zpow_natCast, mul_comm]
    push_cast
    rfl
  have h₂ : (10 : ℚ) ^ (g + k + 1) = (10 ^ (k + 1) : ℕ) * 10 ^ g := by
    rw [add_assoc, ← Nat.cast_succ, zpow_add₀ (by norm_num), zpow_natCast, mul_comm]
    push_cast
    rfl
  rw [h₁, ← le_div_iff₀ hp, ← Nat.le_floor_iff (div_pos hq hp).le] at hlo
  rw [h₂, ← div_lt_iff₀ hp, ← Nat.floor_lt (div_pos hq hp).le] at hhi
  rw [h₁, h₂, value, he]
  constructor
  · exact mul_le_mul_of_nonneg_right (by exact_mod_cast (by omega : 10 ^ k ≤ d.digits)) hp.le
  · exact mul_le_mul_of_nonneg_right (by exact_mod_cast (by omega : d.digits ≤ 10 ^ (k + 1))) hp.le

theorem digits_pos {d : Decimal} (h : 0 < d.value) : 0 < d.digits := by
  by_contra hc
  obtain hz : d.digits = 0 := by omega
  simp [value, hz] at h

theorem value_ofBinary (m : ℕ) (e : ℤ) : (ofBinary m e).value = Binary64.value m e := by
  have ht : (10 : ℚ) = 2 * 5 := by norm_num
  unfold ofBinary
  split_ifs with he
  · rw [value, Binary64.value, zpow_eq_div two_ne_zero, show (-e).toNat = 0 by omega]
    simp
  · rw [value, Binary64.value, ht, mul_zpow, zpow_eq_div (by norm_num : (5 : ℚ) ≠ 0), show e.toNat = 0 by omega]
    simp only [Nat.pow_eq]
    push_cast
    field_simp

theorem exponent_ofBinary (m : ℕ) (e : ℤ) : (ofBinary m e).exponent = min e 0 := by
  unfold ofBinary
  split_ifs with he <;> simp only <;> omega

/-- A decimal that is not too small, and whose exponent a reader does not give up on. -/
structure IsModerate (d : Decimal) : Prop where
  le_exponent : -2048 ≤ d.exponent
  exponent_le : d.exponent ≤ 2048
  le_value : 10 ^ (-4 : ℤ) ≤ d.value

variable {d d' : Decimal} {m : ℕ} {e : ℤ}

theorem IsModerate.value_pos (h : d.IsModerate) : 0 < d.value :=
  lt_of_lt_of_le (by norm_num) h.le_value

theorem IsModerate.toFloat_eq (h : d.IsModerate) : d.toFloat = .ofModel (.pack (nearest .positive d.value)) := by
  refine toFloat_eq_nearest (digits_pos h.value_pos) h.le_exponent h.exponent_le ?_
  have h14 : -14 ≤ Int.log 2 d.value := by
    refine (Int.zpow_le_iff_le_log (by decide) h.value_pos).1 (le_trans ?_ h.le_value)
    norm_num
  omega

theorem IsModerate.toFloat_congr (h : d.IsModerate) (h' : d'.IsModerate) (hv : d.value = d'.value) :
    d.toFloat = d'.toFloat := by
  rw [h.toFloat_eq, h'.toFloat_eq, hv]

theorem IsModerate.toFloat_of_value (h : d.IsModerate) (hn : IsNormal m e) (hv : d.value = Binary64.value m e) :
    d.toFloat = .ofModel (.pack (.finite .positive m e hn.pos)) := by
  rw [h.toFloat_eq, hv, nearest_value .positive hn]

theorem IsModerate.trim (h : d.IsModerate) (hu : d.value ≤ 10 ^ (16 : ℤ)) : d.trim.IsModerate := by
  obtain ⟨hp, he⟩ := trim_spec d (digits_pos h.value_pos)
  have h16 : (10 : ℚ) ^ d.trim.exponent ≤ 10 ^ (16 : ℤ) := by
    have h1 : (1 : ℚ) ≤ d.trim.digits := by exact_mod_cast hp
    calc (10 : ℚ) ^ d.trim.exponent
      _ ≤ d.trim.digits * 10 ^ d.trim.exponent := le_mul_of_one_le_left (zpow_pos (by norm_num) _).le h1
      _ = d.value := value_trim d
      _ ≤ 10 ^ (16 : ℤ) := hu
  have hle := (zpow_le_zpow_iff_right₀ (by norm_num)).1 h16
  exact ⟨h.le_exponent.trans he, by omega, (value_trim d).symm ▸ h.le_value⟩

theorem fewestDigits_spec {accepts : Decimal → Bool} {x : Float} (hn : IsNormal m e)
    (hx : x = .ofModel (.pack (.finite .positive m e hn.pos))) (ha : ∀ d, accepts d = true → d.toFloat = x)
    (hl : 10 ^ (-4 : ℤ) ≤ Binary64.value m e) (hu : Binary64.value m e < 10 ^ (16 : ℤ)) :
    let d := (fewestDigits? accepts (.ofBinary m e)).getD (ofBinary m e)
    d.IsModerate ∧ d.value ≤ 10 ^ (16 : ℤ) ∧ d.toFloat = x := by
  intro d
  cases hf : fewestDigits? accepts (.ofBinary m e) with
  | none =>
    obtain hd : d = ofBinary m e := by simp only [d, hf, Option.getD_none]
    have hv : d.value = Binary64.value m e := by rw [hd, value_ofBinary]
    have he : d.exponent = min e 0 := by rw [hd, exponent_ofBinary]
    have hle := hn.le_exponent
    have hm : d.IsModerate := ⟨by omega, by omega, hv ▸ hl⟩
    exact ⟨hm, hv ▸ hu.le, by rw [hm.toFloat_of_value hn hv, hx]⟩
  | some d' =>
    obtain rfl : d = d' := by simp only [d, hf, Option.getD_some]
    obtain ⟨n, hn17, hnb⟩ := List.exists_of_findSome?_eq_some hf
    obtain ⟨hacc, hexp, hdig⟩ := of_neighbour? hnb
    have hq : 0 < Binary64.value m e := Binary64.value_pos hn.pos e
    have hn17 := List.mem_range.1 hn17
    have h4 : -4 ≤ Int.log 10 (Binary64.value m e) :=
      (Int.zpow_le_iff_le_log (by decide) hq).1 (by exact_mod_cast hl)
    have h16 : Int.log 10 (Binary64.value m e) < 16 :=
      (Int.lt_zpow_iff_log_lt (by decide) hq).1 (by exact_mod_cast hu)
    rw [Quotient.scale_eq (Quotient.num_pos hn.pos e) (Quotient.den_pos m e), Quotient.value_ofBinary] at hexp hdig
    obtain ⟨hlo, hhi⟩ := value_of_floor hq (by omega) rfl (hexp ▸ hdig)
    have hm : d.IsModerate :=
      ⟨by omega, by omega, le_trans (zpow_le_zpow_right₀ (by norm_num) h4) hlo⟩
    exact ⟨hm, hhi.trans (zpow_le_zpow_right₀ (by norm_num) (by omega)), ha d hacc⟩

theorem eq_of_pack_eq {m' : ℕ} {e' : ℤ} (h : IsNormal m e) (h' : IsNormal m' e')
    (hp : Float.ofModel (.pack (.finite .positive m e h.pos)) = .ofModel (.pack (.finite .positive m' e' h'.pos))) :
    m = m' ∧ e = e' := by
  have hu := congrArg (fun x : Float => x.toModel.unpack) hp
  have hc : UnpackedFloat.finite .positive m e h.pos = .finite .positive m' e' h'.pos :=
    (unpack_pack_of_isNormal h).symm.trans (hu.trans (unpack_pack_of_isNormal h'))
  injection hc with _ hm he
  exact ⟨hm, he⟩

/-- What is chosen for a number is read back as the number. It stays below the upper bound, which is a number of
binary64 itself and would be read as that. -/
theorem shortest_spec {x : Float} (hn : IsNormal m e) (hx : x = .ofModel (.pack (.finite .positive m e hn.pos)))
    (hl : 10 ^ (-4 : ℤ) ≤ Binary64.value m e) (hu : Binary64.value m e < 10 ^ (16 : ℤ)) :
    (shortest x m e).IsModerate ∧ (shortest x m e).value < 10 ^ (16 : ℤ) ∧ (shortest x m e).toFloat = x := by
  obtain ⟨hm, hv, hf⟩ := fewestDigits_spec hn hx (fun d => of_decide_eq_true) hl hu
  rw [shortest]
  generalize (fewestDigits? (fun d => decide (d.toFloat = x)) (.ofBinary m e)).getD (ofBinary m e) = d at hm hv hf
  have ht := hm.trim hv
  refine ⟨ht, (value_trim d).symm ▸ lt_of_le_of_ne hv ?_, (ht.toFloat_congr hm (value_trim d)).trans hf⟩
  intro h16
  have h5 : IsNormal 5000000000000000 1 := by constructor <;> decide
  have hd := hm.toFloat_of_value h5 (h16.trans (by norm_num [Binary64.value]))
  obtain ⟨rfl, rfl⟩ := eq_of_pack_eq hn h5 (hx.symm.trans (hf.symm.trans hd))
  norm_num [Binary64.value] at hu

end Decimal

end DeskCalculator
