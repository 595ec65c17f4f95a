import DeskCalculator.Proofs.Lexicon.Writing
import Mathlib.Logic.Function.Iterate

/-!
How far a text has been read. Main statements: reading a token takes what stands before its end, and beyond it at
most the one character that shows that the token cannot be extended; a character is put back only where there
is room for it.
-/
set_option autoImplicit false

namespace DeskCalculator

/-- Where the token ends is seen only from the character behind it. -/
def Token.looksAhead : Token → Bool
  | .number _ _ | .name _ => true
  | .invalid c => c = '.'
  | _ => false

theorem Token.looksAhead_of_ofSymbol? {c : Char} {t : Token} (h : ofSymbol? c = some t) :
    t.looksAhead = false := by
  unfold ofSymbol? at h
  split at h <;> cases h <;> rfl

namespace Reader

variable {r r' : Reader} {c : Char}

def extent (r : Reader) : Nat := r.taken + r.unread.length

@[simp] theorem extent_ofText (text : List Char) : (ofText text).extent = text.length := by
  simp [extent, ofText]

theorem extent_of_next? (h : r.next? = some (c, r')) : r'.extent = r.extent := by
  obtain ⟨unread, held, taken⟩ := r
  cases held <;> cases unread <;> simp [next?] at h <;> obtain ⟨rfl, rfl⟩ := h <;>
    simp only [extent, List.length_cons]
  omega

@[simp] theorem extent_putBack (r : Reader) (c : Char) (room : r.held = none) :
    (r.putBack c room).extent = r.extent := rfl

theorem taken_add_pending (r : Reader) :
    r.taken + r.pending.length = r.extent + r.held.toList.length := by
  simp only [extent, pending, List.length_append]
  omega

@[simp] theorem extent_takeWhile (p : Char → Bool) (r : Reader) :
    (r.takeWhile p).2.extent = r.extent := by
  fun_induction takeWhile p r with
  | case1 r h => rfl
  | case2 r c r' h hp rest ih => exact ih.trans (extent_of_next? h)
  | case3 r c r' h hp => simpa only [extent_putBack] using extent_of_next? h

@[simp] theorem extent_firstNot (p : Char → Bool) (r : Reader) :
    (r.firstNot p).2.extent = r.extent := by
  fun_induction firstNot p r with
  | case1 r h => rfl
  | case2 r c r' h hp ih => exact ih.trans (extent_of_next? h)
  | case3 r c r' h hp => exact extent_of_next? h

theorem held_takeWhile (p : Char → Bool) (r : Reader) :
    (r.takeWhile p).2.held = (r.takeWhile p).2.pending.head? := by
  fun_induction takeWhile p r with
  | case1 r h => rw [held_of_next?_none h, next?_eq_none_iff.1 h, List.head?_nil]
  | case2 r c r' h hp rest ih => exact ih
  | case3 r c r' h hp => rw [pending_putBack, List.head?_cons, putBack]

def putBack? (r : Reader) (c : Char) : Option Reader :=
  if room : r.held = none then some (r.putBack c room) else none

theorem putBack?_eq (room : r.held = none) : r.putBack? c = some (r.putBack c room) := dif_pos room

def takeWhile? (p : Char → Bool) (r : Reader) : Option (List Char × Reader) :=
  match _h : r.next? with
  | none => some ([], r)
  | some (c, r') =>
    if p c then (takeWhile? p r').map fun rest => (c :: rest.1, rest.2)
    else (r'.putBack? c).map ([], ·)
termination_by r.pending.length
decreasing_by exact pending_length_of_next? _h

theorem takeWhile?_eq (p : Char → Bool) (r : Reader) : r.takeWhile? p = some (r.takeWhile p) := by
  fun_induction takeWhile p r with
  | case1 r h =>
    rw [takeWhile?]
    split <;> rename_i h' <;> cases h.symm.trans h'
    rfl
  | case2 r c r' h hp rest ih =>
    rw [takeWhile?]
    split <;> rename_i h' <;> cases h.symm.trans h'
    rw [if_pos hp, ih, Option.map_some]
  | case3 r c r' h hp =>
    rw [takeWhile?]
    split <;> rename_i h' <;> cases h.symm.trans h'
    rw [if_neg hp, putBack?_eq (held_of_next? h), Option.map_some]

end Reader

namespace Lexer

/-- What reading a token leaves: every character of the text, and beyond the token none that has been looked at
but the one that the token looks ahead at. -/
structure Leaves (r : Reader) (t : Token) (r' : Reader) : Prop where
  extent : r'.extent = r.extent
  held : r'.held = if t.looksAhead then r'.pending.head? else none

theorem Leaves.taken_add_pending {r r' : Reader} {t : Token} (h : Leaves r t r') :
    r'.taken + r'.pending.length =
      r.extent + if t.looksAhead = true ∧ r'.pending ≠ [] then 1 else 0 := by
  rw [r'.taken_add_pending, h.extent, h.held]
  cases t.looksAhead <;> cases r'.pending <;> simp

theorem looksAhead_numberToken (whole : List Char) (fraction? : Option (List Char)) :
    (numberToken whole fraction?).looksAhead = true := by
  unfold numberToken
  simp only
  split <;> rfl

theorem leaves_scanNumber (r : Reader) : Leaves r (scanNumber r).1 (scanNumber r).2 := by
  unfold scanNumber
  simp only
  split
  · exact ⟨r.extent_takeWhile _, by rw [looksAhead_numberToken, if_pos rfl, Reader.held_takeWhile]⟩
  · rename_i c r' h
    have hx : r'.extent = r.extent := (Reader.extent_of_next? h).trans (r.extent_takeWhile _)
    split
    · refine ⟨(r'.extent_takeWhile _).trans hx, ?_⟩
      rw [looksAhead_numberToken, if_pos rfl, Reader.held_takeWhile]
    · refine ⟨hx, ?_⟩
      rw [looksAhead_numberToken, if_pos rfl, Reader.pending_putBack, List.head?_cons, Reader.putBack]

theorem leaves_scan (r : Reader) : Leaves r (scan r).1 (scan r).2 := by
  have hx := r.extent_firstNot isGap
  have hn := (r.firstNot_spec isGap).2.2
  unfold scan
  simp only
  split
  · exact ⟨hx, hn⟩
  · rename_i c hc
    split
    · rename_i t ht
      exact ⟨hx, by rw [Token.looksAhead_of_ofSymbol? ht, if_neg Bool.false_ne_true, hn]⟩
    · split
      · obtain ⟨hx', hh⟩ := leaves_scanNumber ((r.firstNot isGap).2.putBack c hn)
        exact ⟨hx'.trans hx, hh⟩
      · rename_i hd
        split
        · refine ⟨(Reader.extent_takeWhile _ _).trans hx, ?_⟩
          exact (Reader.held_takeWhile _ _).trans (if_pos rfl).symm
        · have hp : (Token.invalid c).looksAhead = false := by
            simp only [Bool.or_eq_true, decide_eq_true_eq, not_or] at hd
            exact decide_eq_false hd.2
          exact ⟨hx, by rw [hp, if_neg Bool.false_ne_true, hn]⟩

def scanNumber? (r : Reader) : Option (Token × Reader) := do
  let whole ← r.takeWhile? Text.isAsciiDigit
  match whole.2.next? with
  | none => some (numberToken whole.1 none, whole.2)
  | some (c, r') =>
    if c = '.' then
      let fraction ← r'.takeWhile? Text.isAsciiDigit
      some (numberToken whole.1 (some fraction.1), fraction.2)
    else
      let r'' ← r'.putBack? c
      some (numberToken whole.1 none, r'')

/-- A token, read only if nothing is put back where there is no room. -/
def scan? (r : Reader) : Option (Token × Reader) :=
  let start := r.firstNot isGap
  match start.1 with
  | none => some (.finish, start.2)
  | some c =>
    match Token.ofSymbol? c with
    | some t => some (t, start.2)
    | none =>
      if Text.isAsciiDigit c || c = '.' then do
        let r' ← start.2.putBack? c
        scanNumber? r'
      else if Text.isLetter c then do
        let r' ← start.2.putBack? c
        let word ← r'.takeWhile? isNameCharacter
        some (.name (String.ofList word.1), word.2)
      else some (.invalid c, start.2)

theorem scanNumber?_eq (r : Reader) : scanNumber? r = some (scanNumber r) := by
  unfold scanNumber?
  rw [Reader.takeWhile?_eq, Option.bind_eq_bind, Option.bind_some]
  cases h : (r.takeWhile Text.isAsciiDigit).2.next? with
  | none => rw [scanNumber_of_none h]
  | some step =>
    obtain ⟨c, r'⟩ := step
    simp only [scanNumber_of_some h, Reader.takeWhile?_eq, Reader.putBack?_eq (Reader.held_of_next? h),
      Option.bind_eq_bind, Option.bind_some]
    split <;> rfl

/-- Nothing is put back where there is no room. -/
theorem scan?_eq (r : Reader) : scan? r = some (scan r) := by
  have hr := (r.firstNot_spec isGap).2.2
  unfold scan? scan
  simp only [Reader.putBack?_eq hr, Reader.takeWhile?_eq, scanNumber?_eq, Option.bind_eq_bind, Option.bind_some]
  cases (r.firstNot isGap).1 with
  | none => rfl
  | some c =>
    simp only
    cases Token.ofSymbol? c with
    | some t => rfl
    | none =>
      simp only
      split
      · rfl
      · split <;> rfl

/-- What is left to be read when so many tokens have been read, the end among them. -/
def skip (k : Nat) (r : Reader) : Reader := (fun r => (scan r).2)^[k] r

theorem skip_succ (k : Nat) (r : Reader) : skip (k + 1) r = (scan (skip k r)).2 :=
  Function.iterate_succ_apply' _ k r

theorem tokens_skip (k : Nat) (r : Reader) : tokens (skip k r) = (tokens r).drop k := by
  induction k with
  | zero => rfl
  | succ k ih => rw [skip_succ, ← (tokens_eq _).2, ih, List.tail_drop]

theorem scan_skip (k : Nat) (r : Reader) : (scan (skip k r)).1 = (tokens r).getD k .finish := by
  rw [← (tokens_eq (skip k r)).1, tokens_skip, List.getD_eq_getElem?_getD, ← List.head?_drop]
  cases (tokens r).drop k <;> rfl

theorem extent_skip (k : Nat) (r : Reader) : (skip k r).extent = r.extent := by
  induction k with
  | zero => rfl
  | succ k ih => rw [skip_succ, (leaves_scan _).extent, ih]

end Lexer

namespace Writing

/-- What stands before the end of a lexeme, given how many lexemes there are up to it. Behind the last lexeme the
text has its end. -/
def upTo : Writing → Nat → List Char
  | _, 0 => []
  | .last gap, _ + 1 => gap
  | .piece gap lexeme w, k + 1 => gap ++ (lexeme ++ w.upTo k)

theorem Lexical.upTo_of_length_lt {w : Writing} {ts : List Token} (h : w.Lexical ts) {k : Nat}
    (hk : ts.length < k) : w.upTo k = w.text := by
  induction h generalizing k with
  | last hg =>
    cases k with
    | zero => contradiction
    | succ k => rfl
  | piece hg he ht _ ih =>
    cases k with
    | zero => contradiction
    | succ k => rw [upTo, text, ih (Nat.lt_of_succ_lt_succ hk)]

theorem Lexical.upTo_append_pending {w : Writing} {ts : List Token} (h : w.Lexical ts) (k : Nat) {r : Reader}
    (hr : r.pending = w.text) : w.upTo k ++ (Lexer.skip k r).pending = w.text := by
  induction k generalizing w ts r with
  | zero => rwa [upTo, List.nil_append]
  | succ k ih =>
    have hs : Lexer.skip (k + 1) r = Lexer.skip k (Lexer.scan r).2 := rfl
    cases h with
    | @last gap hg =>
      have hf : (Lexer.scan r).1 = .finish := Lexer.scan_eq_finish_iff.2 (by simpa [hr, text] using hg)
      have hn := ih (.last (by simp)) (Lexer.pending_of_scan_finish hf)
      rw [text, List.append_eq_nil_iff] at hn
      rw [hs, hn.2, upTo, List.append_nil, text]
    | piece hg he ht hw =>
      subst he
      have hp := (Lexer.scan_of_pending hg ht hr).2
      rw [hs, upTo, List.append_assoc, List.append_assoc, ih hw hp, text]

end Writing

end DeskCalculator
