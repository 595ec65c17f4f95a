import DeskCalculator.Proofs.Lexicon.Joining
import DeskCalculator.Proofs.Session.Tokens

set_option autoImplicit false

namespace DeskCalculator

/-- The two texts have the same tokens, make the same reports when they are read, and come to the same in every
session. -/
structure ReadAlike (text text' : List Char) : Prop where
  tokens : tokenize text' = tokenize text
  noting : ∀ log, tokenizeNoting text' log = tokenizeNoting text log
  evaluate : ∀ s : Session, s.evaluate text' = s.evaluate text

theorem tokenizeNoting_congr {text text' : List Char} (h : tokenize text' = tokenize text) (log : ErrorLog) :
    tokenizeNoting text' log = tokenizeNoting text log := by
  have h₁ := Lexer.tokensNoting_eq (.ofText text) log
  have h₂ := Lexer.tokensNoting_eq (.ofText text') log
  have hr : (tokenizeNoting text' log).2.reports.toList = (tokenizeNoting text log).2.reports.toList :=
    h₂.2.trans (h₁.2.trans (by rw [show Lexer.tokens (.ofText text') = _ from h]; rfl)).symm
  refine Prod.ext (h₂.1.trans (Eq.trans h h₁.1.symm)) ?_
  exact congrArg ErrorLog.mk (Array.toList_inj.1 hr)

theorem readAlike_of_tokenize_eq {text text' : List Char} (h : tokenize text' = tokenize text) :
    ReadAlike text text' where
  tokens := h
  noting := tokenizeNoting_congr h
  evaluate s := by rw [s.evaluate_eq_evaluateTokens, s.evaluate_eq_evaluateTokens, h]

namespace Writing

def BeginsApart : Writing → Prop
  | .last _ => True
  | .piece gap _ _ => gap ≠ []

def IsParted : Writing → Prop
  | .last _ => True
  | .piece _ _ w => w.BeginsApart ∧ w.IsParted

theorem BeginsApart.isGap_head {w : Writing} (hb : w.BeginsApart) (hs : w.IsSpaced) :
    ∀ c ∈ w.text.head?, isGap c = true := by
  intro c hc
  cases w with
  | last gap => exact hs c (List.mem_of_mem_head? hc)
  | piece gap lexeme w =>
    obtain ⟨d, ds, rfl⟩ := List.exists_cons_of_ne_nil hb
    obtain rfl : d = c := by simpa [text] using hc
    exact hs.1 d List.mem_cons_self

/-- What stands behind a lexeme may give way to white space, which goes on no token. -/
theorem Lexical.of_isParted {w w' : Writing} {ts : List Token} (h : w.Lexical ts) (hs : w'.IsSpaced)
    (hp : w'.IsParted) (hl : w'.lexemes = w.lexemes) : w'.Lexical ts := by
  induction h generalizing w' with
  | last hg =>
    cases w' with
    | last gap' => exact .last hs
    | piece gap' lexeme' w' => simp [lexemes] at hl
  | piece hg he ht _ ih =>
    cases w' with
    | last gap' => simp [lexemes] at hl
    | piece gap' lexeme' w' =>
      obtain ⟨rfl, hl'⟩ := List.cons.inj hl
      have ht' := ht.of_head fun c hc => .inr (endsTokens_of_isGap (hp.1.isGap_head hs.2 c hc))
      exact .piece hs.1 he ht' (ih hs.2 hp.2 hl')

def spaced (gap : List Char) : List (List Char) → Writing
  | [] => .last []
  | lexeme :: rest => .piece gap lexeme (spaced [' '] rest)

theorem lexemes_spaced (gap : List Char) (ls : List (List Char)) : (spaced gap ls).lexemes = ls := by
  induction ls generalizing gap with
  | nil => rfl
  | cons l ls ih => rw [spaced, lexemes, ih]

theorem beginsApart_spaced (ls : List (List Char)) : (spaced [' '] ls).BeginsApart := by
  cases ls with
  | nil => trivial
  | cons l ls => exact List.cons_ne_nil _ _

theorem isParted_spaced (gap : List Char) (ls : List (List Char)) : (spaced gap ls).IsParted := by
  induction ls generalizing gap with
  | nil => trivial
  | cons l ls ih => exact ⟨beginsApart_spaced ls, ih [' ']⟩

theorem isSpaced_spaced {gap : List Char} (hg : ∀ c ∈ gap, isGap c = true) (ls : List (List Char)) :
    (spaced gap ls).IsSpaced := by
  induction ls generalizing gap with
  | nil => simp [spaced, IsSpaced]
  | cons l ls ih => exact ⟨hg, ih isGap_of_mem_space⟩

theorem text_spaced (ls : List (List Char)) : (spaced [] ls).text = [' '].intercalate ls := by
  cases ls with
  | nil => rfl
  | cons l ls =>
    induction ls generalizing l with
    | nil => simp [spaced, text]
    | cons m ls ih =>
      have hm := ih m
      simp only [spaced, text, List.nil_append] at hm ⊢
      rw [hm, List.intercalate_cons_cons]
      simp

end Writing

def singleSpaced (text : List Char) : List Char :=
  [' '].intercalate ((tokenize text).map fun t => t.lexeme.toList)

theorem tokenize_singleSpaced (text : List Char) : tokenize (singleSpaced text) = tokenize text := by
  obtain ⟨w, -, h⟩ := exists_lexical_tokenize text
  rw [singleSpaced, ← Writing.text_spaced]
  refine (h.of_isParted ?_ (Writing.isParted_spaced _ _) ?_).tokenize_eq
  · exact Writing.isSpaced_spaced (by simp) _
  · rw [Writing.lexemes_spaced, h.lexemes_eq]

def withReturns (text : List Char) : List Char := text.flatMap fun c => if c = '\n' then ['\r', '\n'] else [c]

theorem withReturns_append (a b : List Char) : withReturns (a ++ b) = withReturns a ++ withReturns b :=
  List.flatMap_append

theorem withReturns_of_not_mem {text : List Char} (h : '\n' ∉ text) : withReturns text = text := by
  induction text with
  | nil => rfl
  | cons c cs ih =>
    rw [List.mem_cons, not_or] at h
    rw [withReturns, List.flatMap_cons, if_neg (Ne.symm h.1)]
    exact congrArg (c :: ·) (ih h.2)

theorem head_withReturns (text : List Char) :
    ∀ c ∈ (withReturns text).head?, c ∈ text.head? ∨ c = '\r' := by
  intro c hc
  cases text with
  | nil => simp [withReturns] at hc
  | cons d ds =>
    by_cases hd : d = '\n'
    · exact .inr (by simpa [withReturns, hd, eq_comm] using hc)
    · exact .inl (by simpa [withReturns, hd] using hc)

theorem not_mem_newline_of_isGap {gap : List Char} (h : ∀ c ∈ gap, isGap c = true) : '\n' ∉ gap := fun hm =>
  absurd (h '\n' hm) (by decide)

theorem Token.Stands.eq_newline {t : Token} {rest : List Char} (h : t.Stands rest)
    (hm : '\n' ∈ t.lexeme.toList) : t = .newline := by
  cases h with
  | @symbol c k hk hs =>
    rw [hs.lexeme, List.mem_singleton] at hm
    subst hm
    obtain ⟨u, ho, hu⟩ := Token.exists_ofSymbol?_of_mem hk
    obtain rfl : Token.newline = u := Option.some.inj ho
    exact Token.eq_of_shows hs hu
  | @number cs d hn _ _ _ hs =>
    rw [hs.lexeme] at hm
    obtain hd | hd := hn.digit_or_point _ hm
    · exact absurd hd (by decide)
    · exact absurd hd (by decide)
  | @name c cs hl hcs _ hs =>
    rw [hs.lexeme] at hm
    obtain hc | hc := List.mem_cons.1 hm
    · have hg := endsTokens_newline.not_name
      rw [hc, isNameCharacter, hl] at hg
      contradiction
    · have hg := hcs _ hc
      rw [endsTokens_newline.not_name] at hg
      contradiction
  | badNumber _ hs =>
    rw [hs.lexeme] at hm
    exact absurd hm (by decide)
  | @badToken c _ hk _ _ _ hs =>
    rw [hs.lexeme, List.mem_singleton] at hm
    exact absurd (by simp [← hm, symbolKinds]) (hk .exprEnd)

/-- A carriage return before a line feed is one more gap character. -/
theorem Writing.Lexical.exists_withReturns {w : Writing} {ts : List Token} (h : w.Lexical ts) :
    ∃ w' : Writing, w'.text = withReturns w.text ∧ w'.Lexical ts := by
  induction h with
  | @last gap hg => exact ⟨.last gap, (withReturns_of_not_mem (not_mem_newline_of_isGap hg)).symm, .last hg⟩
  | @piece gap lexeme t w ts hg he ht _ ih =>
    obtain ⟨w', hw, hl⟩ := ih
    have hwg := withReturns_of_not_mem (not_mem_newline_of_isGap hg)
    by_cases hm : '\n' ∈ lexeme
    · obtain rfl := ht.eq_newline (he ▸ hm)
      subst he
      refine ⟨.piece (gap ++ ['\r']) ['\n'] w', ?_, .piece ?_ rfl ?_ hl⟩
      · simp only [text, withReturns_append, hwg, hw]
        simp [withReturns, Token.lexeme]
      · exact List.forall_mem_append.2 ⟨hg, List.forall_mem_singleton.2 (by decide)⟩
      · exact Token.stands_of_ofSymbol? (c := '\n') rfl _
    · have ht' : t.Stands w'.text := by
        refine ht.of_head fun c hc => ?_
        rw [hw] at hc
        obtain h | rfl := head_withReturns _ c hc
        · exact .inl h
        · exact .inr (endsTokens_of_isGap (by decide))
      refine ⟨.piece gap lexeme w', ?_, .piece hg he ht' hl⟩
      simp only [text, withReturns_append, hwg, hw, withReturns_of_not_mem hm]

theorem tokenize_withReturns (text : List Char) : tokenize (withReturns text) = tokenize text := by
  obtain ⟨w, rfl, h⟩ := exists_lexical_tokenize text
  obtain ⟨w', hw, h'⟩ := h.exists_withReturns
  rw [← hw]
  exact h'.tokenize_eq

/-- The white space around the lexemes of a text may be chosen anew as long as there is some between any two.
With one space between any two, texts are the same exactly if their tokens are, and carriage returns before the
line feeds change nothing. -/
theorem readAlike_respaced (text : List Char) :
    (∀ w : Writing, w.IsSpaced → w.IsParted → w.lexemes = (tokenize text).map (fun t => t.lexeme.toList) →
      ReadAlike text w.text) ∧
    ReadAlike text (singleSpaced text) ∧
    (∀ text', singleSpaced text' = singleSpaced text ↔ tokenize text' = tokenize text) ∧
    ReadAlike text (withReturns text) := by
  refine ⟨?_, readAlike_of_tokenize_eq (tokenize_singleSpaced text), ?_,
    readAlike_of_tokenize_eq (tokenize_withReturns text)⟩
  · intro w hs hp hl
    obtain ⟨w₀, -, h⟩ := exists_lexical_tokenize text
    exact readAlike_of_tokenize_eq (h.of_isParted hs hp (hl.trans h.lexemes_eq.symm)).tokenize_eq
  · intro text'
    constructor
    · intro h
      rw [← tokenize_singleSpaced, h, tokenize_singleSpaced]
    · intro h
      rw [singleSpaced, singleSpaced, h]

/-- A number stands against a name, a point alone, and the last character begins no token. -/
theorem readAlike_pointApart :
    let text := "2x=.;\n?".toList
    let w : Writing := .piece [' '] ['2'] (.piece ['\t'] ['x'] (.piece ['\r'] ['='] (.piece [' '] ['.']
      (.piece ['\x0c'] [';'] (.piece ['\r'] ['\n'] (.piece [' '] ['?'] (.last [])))))))
    w.IsSpaced ∧ w.IsParted ∧ w.lexemes = (tokenize text).map (fun t => t.lexeme.toList) ∧
      w.text = " 2\tx\r= .\x0c;\r\n ?".toList ∧ ReadAlike text w.text ∧
      ReadAlike text "2 x = . ; \n ?".toList ∧ singleSpaced w.text = singleSpaced text ∧
      ReadAlike text "2x=.;\r\n?".toList := by
  intro text w
  have hs : w.IsSpaced := by
    refine ⟨?_, ?_, ?_, ?_, ?_, ?_, ?_, by simp [Writing.IsSpaced]⟩ <;>
      exact List.forall_mem_singleton.2 (by decide)
  have hp : w.IsParted := by simp [w, Writing.IsParted, Writing.BeginsApart]
  have hl : w.lexemes = (tokenize text).map (fun t => t.lexeme.toList) := by decide +kernel
  have h1 : singleSpaced text = "2 x = . ; \n ?".toList := by decide +kernel
  have hr : withReturns text = "2x=.;\r\n?".toList := by decide +kernel
  obtain ⟨hw, ho, hiff, hret⟩ := readAlike_respaced text
  have ha := hw w hs hp hl
  rw [h1] at ho
  rw [hr] at hret
  exact ⟨hs, hp, hl, by decide, ha, ho, (hiff w.text).2 ha.tokens, hret⟩

end DeskCalculator
