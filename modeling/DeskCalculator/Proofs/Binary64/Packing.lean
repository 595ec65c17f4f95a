import Mathlib

set_option autoImplicit false

namespace DeskCalculator.Binary64

open Float.Model Float.Model.UnpackedFloat

/-- The mantissa has all its bits, and the exponent leaves room for them. -/
structure IsNormal (m : Nat) (e : Int) : Prop where
  le_mantissa : 2 ^ 52 ≤ m
  mantissa_lt : m < 2 ^ 53
  le_exponent : -1074 ≤ e
  exponent_le : e ≤ 971

variable {s : Sign} {m : Nat} {e : Int}

theorem IsNormal.pos (h : IsNormal m e) : 0 < m := Nat.lt_of_lt_of_le (by decide) h.le_mantissa

theorem IsNormal.log2_eq (h : IsNormal m e) : m.log2 = 52 :=
  (Nat.log2_eq_iff (Nat.ne_of_gt h.pos)).2 ⟨h.le_mantissa, h.mantissa_lt⟩

theorem toNat_one_append (x : BitVec 52) : (1#1 ++ x).toNat = 2 ^ 52 + x.toNat := by
  rw [BitVec.toNat_append, ← Nat.shiftLeft_add_eq_or_of_lt x.isLt, Nat.shiftLeft_eq, BitVec.toNat_ofNat]
  omega

theorem pack_of_isNormal (h : IsNormal m e) :
    UnpackedFloat.pack Format.binary64 (.finite s m e h.pos) =
      packComponents Format.binary64 s (BitVec.ofNat 11 (e + 1075).toNat) (BitVec.ofNat 52 m) := by
  have hb : (e + (Format.binary64.exponentBias : Int) + (Format.binary64.mantissaBitsWithoutImplicit : Int)).toNat =
      (e + 1075).toNat := by
    change (e + 1023 + 52).toNat = _
    omega
  have hl : ¬ 2 ^ Format.binary64.exponentBits ≤ (e + 1075).toNat + 1 := by
    have := h.exponent_le
    change ¬ 2048 ≤ _
    omega
  have hm : m.log2 + 1 = Format.binary64.mantissaBits := by
    rw [h.log2_eq]
    rfl
  rw [UnpackedFloat.pack]
  simp only [hb, if_neg hl, if_pos hm]

/-- What is packed is unpacked again. -/
theorem unpack_pack_of_isNormal (h : IsNormal m e) :
    UnpackedFloat.unpack Format.binary64 (UnpackedFloat.pack Format.binary64 (.finite s m e h.pos)) =
      .finite s m e h.pos := by
  have h₁ := h.le_exponent
  have h₂ := h.exponent_le
  have h₃ := h.le_mantissa
  have h₄ := h.mantissa_lt
  have hx : (BitVec.ofNat 11 (e + 1075).toNat).toNat = (e + 1075).toNat := by
    rw [BitVec.toNat_ofNat, Nat.mod_eq_of_lt (by omega)]
  have hi : BitVec.ofNat 11 (e + 1075).toNat ≠ -1#_ := by
    intro hc
    have := congrArg BitVec.toNat hc
    rw [hx] at this
    change _ = 2047 at this
    omega
  have hz : BitVec.ofNat 11 (e + 1075).toNat ≠ 0#_ := by
    intro hc
    have := congrArg BitVec.toNat hc
    rw [hx] at this
    change _ = 0 at this
    omega
  have hm : (1#1 ++ BitVec.ofNat 52 m).toNat = m := by
    rw [toNat_one_append, BitVec.toNat_ofNat]
    omega
  rw [pack_of_isNormal h, UnpackedFloat.unpack]
  simp only [unpackMantissa_packComponents, unpackExponent_packComponents, unpackSign_packComponents, if_neg hi,
    if_neg hz, Sign.ofBitVec_toBitVec, hx]
  congr 1
  change ((e + 1075).toNat : Int) - (1023 + 52) = e
  omega

theorem unpack_pack_of_lt (hm : 0 < m) (h : m < 2 ^ 52) :
    UnpackedFloat.unpack Format.binary64 (UnpackedFloat.pack Format.binary64 (.finite s m (-1074) hm)) =
      .finite s m (-1074) hm := by
  have hl : ¬ m.log2 + 1 = Format.binary64.mantissaBits := by
    have hm2 : m.log2 < 52 := (Nat.log2_lt hm.ne').2 h
    change ¬ m.log2 + 1 = 53
    omega
  have hi : ¬ 2 ^ Format.binary64.exponentBits ≤ (-1074 + (Format.binary64.exponentBias : Int) +
      (Format.binary64.mantissaBitsWithoutImplicit : Int)).toNat + 1 := by decide
  have hx : (BitVec.ofNat 52 m).toNat = m := by
    rw [BitVec.toNat_ofNat, Nat.mod_eq_of_lt h]
  have hz : BitVec.ofNat 52 m ≠ 0#_ := by
    intro hc
    rw [hc] at hx
    exact hm.ne hx
  have h0 : (0#11 : BitVec 11) ≠ -1#_ := by decide
  rw [UnpackedFloat.pack]
  simp only [if_neg hi, if_neg hl]
  rw [UnpackedFloat.unpack]
  simp only [unpackMantissa_packComponents, unpackExponent_packComponents, unpackSign_packComponents, if_neg h0,
    if_true, dif_neg hz, Sign.ofBitVec_toBitVec, hx]
  rfl

/-- A number that bits hold has all the bits of its mantissa, or has the least exponent. -/
theorem unpack_cases {b : BitVec Format.binary64.numBits} {hm : 0 < m}
    (h : UnpackedFloat.unpack Format.binary64 b = .finite s m e hm) : IsNormal m e ∨ m < 2 ^ 52 ∧ e = -1074 := by
  have hM : (unpackMantissa b).toNat < 2 ^ 52 := (unpackMantissa b).isLt
  have hE : (unpackExponent b).toNat < 2 ^ 11 := (unpackExponent b).isLt
  rw [UnpackedFloat.unpack] at h
  simp only at h
  split_ifs at h with h₁ h₂ h₃ h₄
  · simp only [UnpackedFloat.finite.injEq] at h
    obtain ⟨-, rfl, rfl⟩ := h
    exact .inr ⟨hM, by rw [h₃]; rfl⟩
  · simp only [UnpackedFloat.finite.injEq] at h
    obtain ⟨-, rfl, rfl⟩ := h
    have ha := toNat_one_append (unpackMantissa b)
    have hz : (unpackExponent b).toNat ≠ 0 := fun hc => h₃ (BitVec.eq_of_toNat_eq hc)
    have hi : (unpackExponent b).toNat ≠ 2047 := fun hc => h₁ (BitVec.eq_of_toNat_eq hc)
    have hn : IsNormal (1#1 ++ unpackMantissa b).toNat ((unpackExponent b).toNat - (1023 + 52)) := by
      constructor <;> omega
    exact .inl hn

theorem eq_pack {x : Float} {u : UnpackedFloat} (hx : x.toModel.unpack = u) : x = .ofModel (.pack u) := by
  rw [← hx]
  exact (Float.ofBits_toBits x).symm

end DeskCalculator.Binary64
