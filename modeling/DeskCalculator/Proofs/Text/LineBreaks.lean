import DeskCalculator.Proofs.Lexicon.Characters
import DeskCalculator.Text.Quoted
import Mathlib.Tactic.SplitIfs

/-!
Where a text breaks into lines. Apart from the line feed and the carriage return there are eight more characters that
end a line. Main statements: lines that none of them stands in are found again in the text that they make up, and
nothing that is quoted holds one.
-/
set_option autoImplicit false

namespace DeskCalculator.Text

def RangeTable.within (s t : RangeTable) : Bool :=
  s.all fun r => t.any fun u => Nat.ble u.1 r.1 && Nat.ble r.2 u.2

theorem RangeTable.covers_of_within {s t : RangeTable} {n : Nat} (h : s.within t = true)
    (hs : s.covers n = true) : t.covers n = true := by
  obtain ⟨r, hr, hr₁, hr₂⟩ := (s.covers_iff n).1 hs
  obtain ⟨u, hu, hru⟩ := List.any_eq_true.1 (List.all_eq_true.1 h r hr)
  simp only [Bool.and_eq_true, Nat.ble_eq] at hru
  exact (t.covers_iff n).2 ⟨u, hu, Nat.le_trans hru.1 hr₁, Nat.le_trans hr₂ hru.2⟩

def lineBreakTable : RangeTable := [(0xa, 0xd), (0x1c, 0x1e), (0x85, 0x85), (0x2028, 0x2029)]

def isLineBreak (c : Char) : Bool := lineBreakTable.covers c.toNat

/-- The lines of a text, whichever characters end them; a carriage return and the line feed behind it end one
together. What follows the last end is a line only if it is not empty. -/
def splitLines : List Char → List (List Char)
  | [] => []
  | '\r' :: '\n' :: cs => [] :: splitLines cs
  | c :: cs =>
    if isLineBreak c then [] :: splitLines cs
    else match splitLines cs with
      | [] => [[c]]
      | l :: ls => (c :: l) :: ls

def IsUnbroken (text : List Char) : Prop := ∀ c ∈ text, isLineBreak c = false

def joinLines (lines : List (List Char)) : List Char := lines.flatMap (· ++ ['\n'])

theorem toList_join {α : Type} (f : α → String) (as : List α) :
    (String.join (as.map fun a => f a ++ "\n")).toList = joinLines (as.map fun a => (f a).toList) := by
  simp [joinLines, List.flatMap_map]

variable {s t : List Char} {c mark : Char}

theorem IsUnbroken.append (hs : IsUnbroken s) (ht : IsUnbroken t) : IsUnbroken (s ++ t) :=
  fun c hc => (List.mem_append.1 hc).elim (hs c) (ht c)

theorem isUnbroken_of_all (h : t.all (fun c => !isLineBreak c) = true) : IsUnbroken t :=
  fun c hc => by simpa using List.all_eq_true.1 h c hc

theorem IsUnbroken.cons (hc : isLineBreak c = false) (ht : IsUnbroken t) : IsUnbroken (c :: t) :=
  List.forall_mem_cons.2 ⟨hc, ht⟩

theorem splitLines_append {line : List Char} (h : IsUnbroken line) (rest : List Char) :
    splitLines (line ++ '\n' :: rest) = line :: splitLines rest := by
  induction line with
  | nil =>
    rw [List.nil_append, splitLines, if_pos (by decide)]
    exact fun _ hr => absurd hr (by decide)
  | cons c cs ih =>
    obtain ⟨hc, hcs⟩ := List.forall_mem_cons.1 h
    rw [List.cons_append, splitLines, if_neg (by simp [hc]), ih hcs]
    rintro _ rfl
    exact absurd hc (by decide)

theorem splitLines_joinLines {lines : List (List Char)} (h : ∀ l ∈ lines, IsUnbroken l) :
    splitLines (joinLines lines) = lines := by
  induction lines with
  | nil => rfl
  | cons l ls ih =>
    obtain ⟨hl, hls⟩ := List.forall_mem_cons.1 h
    have hj : joinLines (l :: ls) = l ++ '\n' :: joinLines ls := by simp [joinLines]
    rw [hj, splitLines_append hl, ih hls]

def isVisible (c : Char) : Bool := Nat.ble 0x21 c.toNat && Nat.ble c.toNat 0x7e

theorem not_isLineBreak_of_isVisible (h : isVisible c = true) : isLineBreak c = false := by
  have hv : RangeTable.covers [(0x21, 0x7e)] c.toNat = true := by
    rw [RangeTable.covers_iff]
    simpa [isVisible] using h
  exact RangeTable.not_covers_of_apart (by decide) hv

theorem isUnbroken_of_isVisible (h : t.all isVisible = true) : IsUnbroken t :=
  fun c hc => not_isLineBreak_of_isVisible (List.all_eq_true.1 h c hc)

theorem isVisible_of_isDigit (h : c.isDigit = true) : isVisible c = true := by
  have hd : 48 ≤ c.toNat ∧ c.toNat ≤ 57 := by
    simpa [Char.isDigit, UInt32.le_iff_toNat_le] using h
  simp only [isVisible, Bool.and_eq_true, Nat.ble_eq]
  omega

theorem isVisible_toDigits (n : Nat) : (Nat.toDigits 10 n).all isVisible = true :=
  List.all_eq_true.2 fun _ hc =>
    isVisible_of_isDigit (Nat.isDigit_of_mem_toDigits (by decide) (by decide) hc)

theorem lineBreakTable_within_unprintableTable : lineBreakTable.within unprintableTable = true := by
  decide +kernel

theorem not_isLineBreak_of_isPrintable (h : isPrintable c = true) : isLineBreak c = false := by
  rw [Bool.eq_false_iff]
  intro hb
  have hu := RangeTable.covers_of_within lineBreakTable_within_unprintableTable hb
  simp [isPrintable, hu] at h

theorem isVisible_hexDigit (n : Nat) : isVisible (hexDigit n) = true := by
  have h : ∀ k < 16, isVisible (Nat.digitChar k) = true := by decide
  exact h (n % 16) (Nat.mod_lt n (by decide))

theorem isVisible_hexadecimal (width n : Nat) : (hexadecimal width n).all isVisible = true := by
  induction width generalizing n with
  | zero => rfl
  | succ w ih => simp [hexadecimal, ih, isVisible_hexDigit]

theorem isVisible_codeForm (c : Char) : (codeForm c).all isVisible = true := by
  have hb : isVisible backslash = true := by decide
  unfold codeForm
  split_ifs <;> simp only [List.all_cons, hb, isVisible_hexadecimal] <;> decide

theorem isUnbroken_escape (hm : isLineBreak mark = false) (c : Char) : IsUnbroken (escape mark c) := by
  unfold escape
  split_ifs with h₁ h₂ h₃ h₄ h₅
  · refine .cons (by decide) (.cons ?_ (by simp [IsUnbroken]))
    obtain rfl | rfl : c = mark ∨ c = backslash := by simpa using h₁
    · exact hm
    · decide
  · exact isUnbroken_of_isVisible (by decide)
  · exact isUnbroken_of_isVisible (by decide)
  · exact isUnbroken_of_isVisible (by decide)
  · exact .cons (not_isLineBreak_of_isPrintable h₅) (by simp [IsUnbroken])
  · exact isUnbroken_of_isVisible (isVisible_codeForm c)

theorem not_isLineBreak_quoteMark (s : List Char) : isLineBreak (quoteMark s) = false := by
  unfold quoteMark
  split <;> decide

theorem isUnbroken_quoted (s : List Char) : IsUnbroken (quoted s) := by
  have hm := not_isLineBreak_quoteMark s
  refine .cons hm (.append ?_ (.cons hm (by simp [IsUnbroken])))
  intro c hc
  obtain ⟨d, -, hd⟩ := List.mem_flatMap.1 hc
  exact isUnbroken_escape hm d c hd

end DeskCalculator.Text
