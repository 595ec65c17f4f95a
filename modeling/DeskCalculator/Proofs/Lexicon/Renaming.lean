import DeskCalculator.Proofs.Lexicon.Joining

set_option autoImplicit false

namespace DeskCalculator

/-- A letter, and behind it letters and numerals. -/
def IsName (name : String) : Prop :=
  ∃ c cs, name.toList = c :: cs ∧ Text.isLetter c = true ∧ ∀ d ∈ cs, isNameCharacter d = true

namespace Token

def rename (f : String → String) : Token → Token
  | .name id => .name (f id)
  | t => t

variable (f : String → String) {t : Token}

theorem rename_of_kind (h : t.kind ≠ .name) : t.rename f = t := by
  cases t with
  | name id => exact absurd rfl h
  | _ => rfl

theorem report?_rename (t : Token) : (t.rename f).report? = t.report? := by cases t <;> rfl

theorem rename_eq_finish_iff : t.rename f = .finish ↔ t = .finish := by
  cases t <;> simp [rename]

theorem stands_name_iff {id : String} {rest : List Char} :
    (Token.name id).Stands rest ↔ IsName id ∧ NotNext isNameCharacter rest := by
  constructor
  · intro h
    cases h with
    | symbol hc hs => simp [symbolKinds, ← hs.kind, kind] at hc
    | name hl hcs hr hs => exact ⟨⟨_, _, hs.lexeme, hl, hcs⟩, hr⟩
    | number _ _ _ _ hs | badNumber _ hs | badToken _ _ _ _ _ hs => cases hs.kind
  · intro h
    obtain ⟨⟨c, cs, hi, hc, hcs⟩, hr⟩ := h
    exact .name hc hcs hr ⟨rfl, hi, rfl, rfl⟩

theorem Stands.rename {rest : List Char} (h : t.Stands rest) (hf : ∀ id, t = .name id → IsName (f id)) :
    (t.rename f).Stands rest := by
  cases t with
  | name id => exact stands_name_iff.2 ⟨hf id rfl, (stands_name_iff.1 h).2⟩
  | _ => exact h

theorem Stands.notNext_rename {rest us vs : List Char} (h : t.Stands rest)
    (hf : ∀ id, t = .name id → IsName (f id)) {p : Char → Bool}
    (hp : ∀ c d, Text.isLetter c = true → Text.isLetter d = true → p c = p d)
    (hn : NotNext p (t.lexeme.toList ++ us)) : NotNext p ((t.rename f).lexeme.toList ++ vs) := by
  by_cases hk : t.kind = .name
  · cases t with
    | name id =>
      obtain ⟨c, cs, hc, hl, -⟩ := (stands_name_iff.1 h).1
      obtain ⟨d, ds, hd, hl', -⟩ := hf id rfl
      rw [lexeme, hc] at hn
      rw [Token.rename, lexeme, hd]
      exact notNext_cons.2 ((hp d c hl' hl).trans (notNext_cons.1 hn))
    | _ => cases hk
  · obtain ⟨c, cs, hc, -⟩ := h.exists_lexeme_eq
    rw [hc] at hn
    rw [rename_of_kind f hk, hc]
    exact notNext_cons.2 (notNext_cons.1 hn)

end Token

namespace Lexer

/-- What is left of a text, with another name in the place of each. -/
def renameNames (f : String → String) (r : Reader) : List Char :=
  if _h : (scan r).1 = .finish then r.pending
  else r.pending.takeWhile isGap ++ (((scan r).1.rename f).lexeme.toList ++ renameNames f (scan r).2)
termination_by r.pending.length
decreasing_by exact pending_length_scan_lt _h

variable {f : String → String} {r : Reader}

/-- A class that does not tell letters apart meets nothing new where a text with other names goes on. -/
theorem notNext_renameNames (hf : ∀ id, .name id ∈ tokens r → IsName (f id)) {p : Char → Bool}
    (hp : ∀ c d, Text.isLetter c = true → Text.isLetter d = true → p c = p d)
    (h : NotNext p r.pending) : NotNext p (renameNames f r) := by
  rw [renameNames]
  split
  · exact h
  · rename_i hn
    rw [tokens, dif_neg hn] at hf
    rw [pending_scan r, List.append_assoc] at h
    cases hw : r.pending.takeWhile isGap with
    | cons c cs =>
      rw [hw] at h
      exact notNext_cons.2 (notNext_cons.1 h)
    | nil =>
      rw [hw] at h
      exact (stands_scan hn).notNext_rename f (fun id hi => hf id (hi ▸ List.mem_cons_self)) hp h

/-- Renaming moves no token: the lexemes stand as they stood, and the names are the new ones. -/
theorem exists_lexical_renameNames (hf : ∀ id, .name id ∈ tokens r → IsName (f id)) :
    ∃ w : Writing, w.text = renameNames f r ∧ w.Lexical ((tokens r).map (Token.rename f)) := by
  fun_induction renameNames f r with
  | case1 r hn =>
    rw [tokens, dif_pos hn]
    exact ⟨.last r.pending, rfl, .last (by simpa using scan_eq_finish_iff.1 hn)⟩
  | case2 r hn ih =>
    rw [tokens, dif_neg hn] at hf ⊢
    have hf' : ∀ id, .name id ∈ tokens (scan r).2 → IsName (f id) := fun id hi =>
      hf id (List.mem_cons_of_mem _ hi)
    obtain ⟨w, hw, hl⟩ := ih hf'
    have ht : ((scan r).1.rename f).Stands w.text := by
      rw [hw]
      -- What would extend the token is a digit, a point or what goes on a name: all letters or none of them.
      refine ((stands_scan hn).rename f fun id hi => hf id (hi ▸ List.mem_cons_self)).of_notNext ?_ ?_ ?_
      · refine notNext_renameNames hf' fun c d hc hd => ?_
        rw [Text.not_isAsciiDigit_of_isLetter hc, Text.not_isAsciiDigit_of_isLetter hd]
      · refine notNext_renameNames hf' fun c d hc hd => ?_
        rw [beq_eq_false_iff_ne.2 (Text.ne_point_of_isLetter hc),
          beq_eq_false_iff_ne.2 (Text.ne_point_of_isLetter hd)]
      · refine notNext_renameNames hf' fun c d hc hd => ?_
        simp only [isNameCharacter, hc, hd, Bool.true_or]
    exact ⟨.piece _ _ w, by rw [Writing.text, hw],
      .piece (fun c hc => List.mem_takeWhile_imp hc) rfl ht hl⟩

end Lexer

def renameNames (f : String → String) (text : List Char) : List Char := Lexer.renameNames f (.ofText text)

theorem tokenize_renameNames {f : String → String} {text : List Char}
    (hf : ∀ id, .name id ∈ tokenize text → IsName (f id)) :
    tokenize (renameNames f text) = (tokenize text).map (Token.rename f) := by
  obtain ⟨w, hw, h⟩ := Lexer.exists_lexical_renameNames hf
  rw [renameNames, ← hw]
  exact h.tokenize_eq

end DeskCalculator
