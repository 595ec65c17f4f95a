import DeskCalculator.Lexer

set_option autoImplicit false

namespace DeskCalculator

namespace Text

def RangeTable.apart (s t : RangeTable) : Bool :=
  s.all fun r => t.all fun u => Nat.blt r.2 u.1 || Nat.blt u.2 r.1

theorem RangeTable.not_covers_of_apart {s t : RangeTable} {n : Nat} (h : s.apart t = true)
    (hs : s.covers n = true) : t.covers n = false := by
  rw [Bool.eq_false_iff]
  intro ht
  obtain ⟨r, hr, hr₁, hr₂⟩ := (s.covers_iff n).1 hs
  obtain ⟨u, hu, hu₁, hu₂⟩ := (t.covers_iff n).1 ht
  have ha := List.all_eq_true.1 (List.all_eq_true.1 h r hr) u hu
  simp only [Bool.or_eq_true, Nat.blt_eq] at ha
  omega

theorem letterTable_apart_blankTable : letterTable.apart blankTable = true := by decide +kernel

theorem numeralTable_apart_blankTable : numeralTable.apart blankTable = true := by decide +kernel

theorem letterTable_apart_low : letterTable.apart [(0, 0x40)] = true := by decide +kernel

theorem lt_of_isLetter {c : Char} (h : isLetter c = true) : 0x40 < c.toNat := by
  have ha := RangeTable.not_covers_of_apart letterTable_apart_low h
  simp only [← Bool.not_eq_true, RangeTable.covers_iff, List.mem_singleton, exists_eq_left] at ha
  omega

theorem ne_point_of_isLetter {c : Char} (h : isLetter c = true) : c ≠ '.' := by
  rintro rfl
  exact absurd (lt_of_isLetter h) (by decide)

theorem isAsciiDigit_iff (c : Char) :
    isAsciiDigit c = true ↔ 48 ≤ c.toNat ∧ c.toNat ≤ 57 := by
  simp [isAsciiDigit]

theorem not_isAsciiDigit_of_isLetter {c : Char} (h : isLetter c = true) :
    isAsciiDigit c = false := by
  have hl := lt_of_isLetter h
  rw [Bool.eq_false_iff, ne_eq, isAsciiDigit_iff]
  omega

end Text

theorem not_isGap_of_isLetter {c : Char} (h : Text.isLetter c = true) : isGap c = false := by
  have hb : Text.isBlank c = false :=
    Text.RangeTable.not_covers_of_apart Text.letterTable_apart_blankTable h
  simp [isGap, hb]

theorem not_isGap_of_isAsciiDigit {c : Char} (h : Text.isAsciiDigit c = true) :
    isGap c = false := by
  have hd : Text.RangeTable.covers [(48, 57)] c.toNat = true := by
    rw [Text.RangeTable.covers_iff]
    simpa using (Text.isAsciiDigit_iff c).1 h
  have hb : Text.isBlank c = false := Text.RangeTable.not_covers_of_apart (by decide) hd
  simp [isGap, hb]

theorem not_isNameCharacter_of_isGap {c : Char} (h : isGap c = true) : isNameCharacter c = false := by
  have hl : Text.isLetter c = false := by
    rw [Bool.eq_false_iff]
    intro hl
    simp [not_isGap_of_isLetter hl] at h
  have hn : Text.isNumeral c = false := by
    rw [Bool.eq_false_iff]
    intro hn
    have hb : Text.isBlank c = false :=
      Text.RangeTable.not_covers_of_apart Text.numeralTable_apart_blankTable hn
    simp [isGap, hb] at h
  simp [isNameCharacter, hl, hn]

theorem isGap_of_mem_space : ∀ c ∈ [' '], isGap c = true := List.forall_mem_singleton.2 (by decide)

end DeskCalculator
