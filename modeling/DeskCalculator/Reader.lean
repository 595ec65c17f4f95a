/-!
A text that is read one character at a time. The character read last may be put back and is then read
again; there is room for one such character.
-/
set_option autoImplicit false

namespace DeskCalculator

structure Reader where
  unread : List Char
  held : Option Char := none
  /-- How many characters have been taken from the text, a character put back among them. -/
  taken : Nat := 0
  deriving DecidableEq

namespace Reader

def ofText (text : List Char) : Reader := { unread := text }

def pending (r : Reader) : List Char := r.held.toList ++ r.unread

def next? (r : Reader) : Option (Char × Reader) :=
  match r.held, r.unread with
  | some c, _ => some (c, { r with held := none })
  | none, c :: cs => some (c, { unread := cs, held := none, taken := r.taken + 1 })
  | none, [] => none

def putBack (r : Reader) (c : Char) (_room : r.held = none) : Reader := { r with held := some c }

theorem held_of_next? {r r' : Reader} {c : Char} (h : r.next? = some (c, r')) : r'.held = none := by
  obtain ⟨unread, held, taken⟩ := r
  cases held <;> cases unread <;> simp [next?] at h <;> obtain ⟨rfl, rfl⟩ := h <;> rfl

theorem held_of_next?_none {r : Reader} (h : r.next? = none) : r.held = none := by
  obtain ⟨unread, held, taken⟩ := r
  cases held <;> cases unread <;> simp [next?] at h ⊢

theorem pending_of_next? {r r' : Reader} {c : Char} (h : r.next? = some (c, r')) :
    r.pending = c :: r'.pending := by
  obtain ⟨unread, held, taken⟩ := r
  cases held <;> cases unread <;> simp [next?] at h <;> obtain ⟨rfl, rfl⟩ := h <;> simp [pending]

theorem next?_eq_none_iff {r : Reader} : r.next? = none ↔ r.pending = [] := by
  obtain ⟨unread, held, taken⟩ := r
  cases held <;> cases unread <;> simp [next?, pending]

@[simp] theorem pending_putBack (r : Reader) (c : Char) (room : r.held = none) :
    (r.putBack c room).pending = c :: r.pending := by
  simp [putBack, pending, room]

theorem pending_length_of_next? {r r' : Reader} {c : Char} (h : r.next? = some (c, r')) :
    r'.pending.length < r.pending.length := by
  simp [pending_of_next? h]

def takeWhile (p : Char → Bool) (r : Reader) : List Char × Reader :=
  match h : r.next? with
  | none => ([], r)
  | some (c, r') =>
    if p c then
      let rest := takeWhile p r'
      (c :: rest.1, rest.2)
    else ([], r'.putBack c (held_of_next? h))
termination_by r.pending.length
decreasing_by exact pending_length_of_next? h

def firstNot (p : Char → Bool) (r : Reader) : Option Char × Reader :=
  match _h : r.next? with
  | none => (none, r)
  | some (c, r') => if p c then firstNot p r' else (some c, r')
termination_by r.pending.length
decreasing_by exact pending_length_of_next? _h

theorem takeWhile_spec (p : Char → Bool) (r : Reader) :
    (r.takeWhile p).1 = r.pending.takeWhile p ∧
      (r.takeWhile p).2.pending = r.pending.dropWhile p := by
  fun_induction takeWhile p r with
  | case1 r h => simp [next?_eq_none_iff.1 h]
  | case2 r c r' h hp rest ih => simp [pending_of_next? h, hp, ih.1, ih.2, rest]
  | case3 r c r' h hp => simp [pending_of_next? h, hp]

theorem firstNot_spec (p : Char → Bool) (r : Reader) :
    (r.firstNot p).1 = (r.pending.dropWhile p).head? ∧
      (r.firstNot p).2.pending = (r.pending.dropWhile p).tail ∧ (r.firstNot p).2.held = none := by
  fun_induction firstNot p r with
  | case1 r h => simp [next?_eq_none_iff.1 h, held_of_next?_none h]
  | case2 r c r' h hp ih => simpa [pending_of_next? h, hp] using ih
  | case3 r c r' h hp => simp [pending_of_next? h, hp, held_of_next? h]

end Reader

end DeskCalculator
