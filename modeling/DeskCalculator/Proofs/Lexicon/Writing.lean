import DeskCalculator.Proofs.Lexicon.Scan

/-!
Texts written as lexemes with gaps around them. Main statement: the tokens of a text are those of the one
writing in which every lexeme stands as the lexical grammar demands, and each mistake among them is
reported.
-/
set_option autoImplicit false

namespace DeskCalculator

theorem Token.Stands.exists_lexeme_eq {t : Token} {rest : List Char} (h : t.Stands rest) :
    ∃ c cs, t.lexeme.toList = c :: cs ∧ isGap c = false := by
  cases h with
  | @symbol c k hk hs =>
    obtain ⟨u, ho, -⟩ := exists_ofSymbol?_of_mem hk
    exact ⟨c, [], hs.lexeme, (toNat_of_ofSymbol? ho).2.2.2⟩
  | @number cs d hn hrd hrp hv hs =>
    obtain ⟨e, he, -⟩ := hn.digit
    obtain ⟨c, ds, rfl⟩ := List.exists_cons_of_ne_nil (List.ne_nil_of_mem he)
    refine ⟨c, ds, hs.lexeme, ?_⟩
    obtain hc | rfl := hn.digit_or_point c List.mem_cons_self
    · exact not_isGap_of_isAsciiDigit hc
    · decide
  | @name c cs hl hcs hr hs => exact ⟨c, cs, hs.lexeme, not_isGap_of_isLetter hl⟩
  | badNumber hr hs => exact ⟨'.', [], hs.lexeme, by decide⟩
  | @badToken c hg hk hd hp hl hs => exact ⟨c, [], hs.lexeme, hg⟩

theorem Token.Stands.ne_finish {t : Token} {rest : List Char} (h : t.Stands rest) : t ≠ .finish := by
  rintro rfl
  obtain ⟨c, cs, hl, -⟩ := h.exists_lexeme_eq
  simp [lexeme] at hl

namespace Lexer

variable {r : Reader}

theorem scan_of_pending {gap rest : List Char} {t : Token} (hg : ∀ c ∈ gap, isGap c = true)
    (ht : t.Stands rest) (hr : r.pending = gap ++ (t.lexeme.toList ++ rest)) :
    (scan r).1 = t ∧ (scan r).2.pending = rest := by
  obtain ⟨c, cs, hl, hc⟩ := ht.exists_lexeme_eq
  refine scan_of_stands ?_ ht
  rw [hr, hl, List.cons_append]
  exact (notNext_cons.2 hc).dropWhile_eq hg

theorem exists_pending_eq (h : (scan r).1 ≠ .finish) :
    ∃ gap, (∀ c ∈ gap, isGap c = true) ∧ (scan r).1.Stands (scan r).2.pending ∧
      r.pending = gap ++ ((scan r).1.lexeme.toList ++ (scan r).2.pending) := by
  refine ⟨r.pending.takeWhile isGap, fun c hc => List.mem_takeWhile_imp hc, stands_scan h, ?_⟩
  rw [← List.append_assoc]
  exact pending_scan r

end Lexer

/-- A text written as gaps and lexemes in turns. It begins and ends with a gap, which may be empty. -/
inductive Writing
  | last (gap : List Char)
  | piece (gap lexeme : List Char) (rest : Writing)

namespace Writing

def text : Writing → List Char
  | .last gap => gap
  | .piece gap lexeme w => gap ++ (lexeme ++ w.text)

def lexemes : Writing → List (List Char)
  | .last _ => []
  | .piece _ lexeme w => lexeme :: w.lexemes

def IsSpaced : Writing → Prop
  | .last gap => ∀ c ∈ gap, isGap c = true
  | .piece gap _ w => (∀ c ∈ gap, isGap c = true) ∧ w.IsSpaced

/-- The lexemes are those of the tokens, and each token may stand where its lexeme does. -/
inductive Lexical : Writing → List Token → Prop
  | last {gap : List Char} : (∀ c ∈ gap, isGap c = true) → Lexical (.last gap) []
  | piece {gap lexeme : List Char} {t : Token} {w : Writing} {ts : List Token} :
      (∀ c ∈ gap, isGap c = true) → t.lexeme.toList = lexeme → t.Stands w.text → Lexical w ts →
      Lexical (.piece gap lexeme w) (t :: ts)

namespace Lexical

theorem isSpaced {w : Writing} {ts : List Token} (h : Lexical w ts) : w.IsSpaced := by
  induction h with
  | last hg => exact hg
  | piece hg _ _ _ ih => exact ⟨hg, ih⟩

theorem lexemes_eq {w : Writing} {ts : List Token} (h : Lexical w ts) :
    w.lexemes = ts.map fun t => t.lexeme.toList := by
  induction h with
  | last _ => rfl
  | piece _ hl _ _ ih => simp [lexemes, hl, ih]

theorem begins {w : Writing} {ts : List Token} (h : Lexical w ts) :
    ∀ l ∈ w.lexemes, ∃ c cs, l = c :: cs ∧ isGap c = false := by
  induction h with
  | last _ => simp [lexemes]
  | piece _ he ht _ ih =>
    intro l hl
    obtain rfl | hl := List.mem_cons.1 hl
    · rw [← he]
      exact ht.exists_lexeme_eq
    · exact ih l hl

theorem tokens_eq {w : Writing} {ts : List Token} (h : Lexical w ts) {r : Reader}
    (hr : r.pending = w.text) : Lexer.tokens r = ts := by
  induction h generalizing r with
  | @last gap hg =>
    have hd : r.pending.dropWhile isGap = [] := by simpa [hr, text] using hg
    rw [Lexer.tokens, dif_pos (Lexer.scan_eq_finish_iff.2 hd)]
  | piece hg he ht _ ih =>
    subst he
    obtain ⟨h₁, h₂⟩ := Lexer.scan_of_pending hg ht hr
    rw [Lexer.tokens, dif_neg (h₁ ▸ ht.ne_finish), h₁, ih h₂]

theorem tokenize_eq {w : Writing} {ts : List Token} (h : Lexical w ts) : tokenize w.text = ts :=
  h.tokens_eq rfl

end Lexical

/-- Lexemes that do not begin like a gap leave no choice for the gaps. -/
theorem eq_of_lexemes_eq {w w' : Writing}
    (hw : ∀ l ∈ w.lexemes, ∃ c cs, l = c :: cs ∧ isGap c = false) (hs : w.IsSpaced)
    (hs' : w'.IsSpaced) (ht : w.text = w'.text) (hl : w.lexemes = w'.lexemes) : w = w' := by
  induction w generalizing w' with
  | last gap =>
    cases w' with
    | last gap' => exact congrArg last ht
    | piece gap' lexeme' w' => simp [lexemes] at hl
  | piece gap lexeme w ih =>
    cases w' with
    | last gap' => simp [lexemes] at hl
    | piece gap' lexeme' w' =>
      obtain ⟨rfl, hl'⟩ := List.cons.inj hl
      -- Both first gaps are the longest run of gap characters, as the lexeme begins with none.
      obtain ⟨c, cs, rfl, hc⟩ := hw lexeme List.mem_cons_self
      have hn : ∀ rest, NotNext isGap (c :: cs ++ rest) := fun rest => notNext_cons.2 hc
      have hg := congrArg (List.takeWhile isGap) ht
      simp only [text, (hn _).takeWhile_eq hs.1, (hn _).takeWhile_eq hs'.1] at hg
      subst hg
      have hr : w.text = w'.text := by
        simpa [text] using ht
      rw [ih (fun l hm => hw l (List.mem_cons_of_mem _ hm)) hs.2 hs'.2 hr hl']

theorem exists_lexical (r : Reader) : ∃ w : Writing, w.text = r.pending ∧ w.Lexical (Lexer.tokens r) := by
  fun_induction Lexer.tokens r with
  | case1 r h =>
    have hg := Lexer.scan_eq_finish_iff.1 h
    exact ⟨.last r.pending, rfl, .last (by simpa using hg)⟩
  | case2 r h ih =>
    obtain ⟨w, hw, hl⟩ := ih
    obtain ⟨gap, hg, ht, hr⟩ := Lexer.exists_pending_eq h
    exact ⟨.piece gap _ w, by rw [text, hw, hr], .piece hg rfl (hw ▸ ht) hl⟩

end Writing

theorem Lexer.tokensNoting_eq (r : Reader) (log : ErrorLog) :
    (tokensNoting r log).1 = tokens r ∧
      (tokensNoting r log).2.reports.toList =
        log.reports.toList ++ (tokens r).filterMap Token.report? := by
  fun_induction tokensNoting r log with
  | case1 r log h =>
    rw [tokens, dif_pos h]
    simp
  | case2 r log h others ih =>
    obtain ⟨h₁, h₂⟩ := ih
    have ht : tokens r = (scan r).1 :: tokens (scan r).2 := by rw [tokens, dif_neg h]
    rw [ht]
    refine ⟨congrArg _ h₁, h₂.trans ?_⟩
    cases hr : (scan r).1.report? with
    | none => simp [ErrorLog.note, hr]
    | some e => simp [ErrorLog.note, hr]

/-- There is one way to write a text with gaps around the lexemes of its tokens. It is the one way to write
the text by the lexical grammar, whatever the tokens. The reports of its tokens are made in order. -/
theorem tokenize_lexical (text : List Char) (log : ErrorLog) :
    (∃! w : Writing, w.text = text ∧ w.IsSpaced ∧
      w.lexemes = (tokenize text).map fun t => t.lexeme.toList) ∧
    (∀ (w : Writing) (ts : List Token), w.text = text ∧ w.Lexical ts ↔
      w.text = text ∧ w.IsSpaced ∧ w.lexemes = (tokenize text).map (fun t => t.lexeme.toList) ∧
        ts = tokenize text) ∧
    (tokenizeNoting text log).1 = tokenize text ∧
      (tokenizeNoting text log).2.reports.toList =
        log.reports.toList ++ (tokenize text).filterMap Token.report? := by
  obtain ⟨w, hw, hl⟩ := Writing.exists_lexical (.ofText text)
  have hu : ∀ w' : Writing, w'.text = text → w'.IsSpaced →
      w'.lexemes = (tokenize text).map (fun t => t.lexeme.toList) → w' = w := by
    intro w' ht hs hx
    exact (Writing.eq_of_lexemes_eq hl.begins hl.isSpaced hs (hw.trans ht.symm)
      (hl.lexemes_eq.trans hx.symm)).symm
  refine ⟨⟨w, ⟨hw, hl.isSpaced, hl.lexemes_eq⟩, fun w' h => hu w' h.1 h.2.1 h.2.2⟩, ?_,
    Lexer.tokensNoting_eq _ _⟩
  intro w' ts
  constructor
  · intro h
    obtain ⟨rfl, hl'⟩ := h
    rw [hl'.tokenize_eq]
    exact ⟨rfl, hl'.isSpaced, hl'.lexemes_eq, rfl⟩
  · intro h
    obtain ⟨ht, hs, hx, rfl⟩ := h
    obtain rfl := hu w' ht hs hx
    exact ⟨ht, hl⟩

end DeskCalculator
