import DeskCalculator.Proofs.Lexicon.Joining
import DeskCalculator.Proofs.Session.Segment

/-!
The texts of statements. A text is cut behind every token that ends a statement. Main statement: the pieces
make up the text, their tokens are the segments of its tokens, and what is read from a text up to the next
outcome is the first piece with something to answer.
-/
set_option autoImplicit false

namespace DeskCalculator

def pieces (text : List Char) : List (List Char) :=
  let step := Lexer.scan (.ofText text)
  let written := text.take (text.length - step.2.pending.length)
  if _h : step.1 = .finish then [text]
  else if step.1.isBoundary then written :: pieces step.2.pending
  else (pieces step.2.pending).modifyHead (written ++ ·)
termination_by text.length
decreasing_by all_goals exact Lexer.pending_length_scan_lt _h

theorem pieces_gap {gap : List Char} (h : ∀ c ∈ gap, isGap c = true) : pieces gap = [gap] := by
  have hf : (Lexer.scan (.ofText gap)).1 = .finish :=
    Lexer.scan_eq_finish_iff.2 (List.dropWhile_eq_nil_iff.2 h)
  rw [pieces, dif_pos hf]

section
variable {gap rest : List Char} {t : Token}

theorem pieces_eq (hg : ∀ c ∈ gap, isGap c = true) (ht : t.Stands rest) :
    pieces (gap ++ (t.lexeme.toList ++ rest)) =
      if t.isBoundary then (gap ++ t.lexeme.toList) :: pieces rest
      else (pieces rest).modifyHead (gap ++ t.lexeme.toList ++ ·) := by
  obtain ⟨h₁, h₂⟩ := Lexer.scan_of_pending (r := .ofText (gap ++ (t.lexeme.toList ++ rest))) hg ht rfl
  have hn : (Lexer.scan (.ofText (gap ++ (t.lexeme.toList ++ rest)))).1 ≠ .finish := by
    rw [h₁]
    exact ht.ne_finish
  have hw : (gap ++ (t.lexeme.toList ++ rest)).take
      ((gap ++ (t.lexeme.toList ++ rest)).length - rest.length) = gap ++ t.lexeme.toList := by
    rw [← List.append_assoc, List.length_append, Nat.add_sub_cancel]
    exact List.take_left
  rw [pieces, dif_neg hn, h₁, h₂, hw]

theorem pieces_of_boundary (hg : ∀ c ∈ gap, isGap c = true) (ht : t.Stands rest)
    (hb : t.isBoundary = true) :
    pieces (gap ++ (t.lexeme.toList ++ rest)) = (gap ++ t.lexeme.toList) :: pieces rest := by
  rw [pieces_eq hg ht, if_pos hb]

theorem pieces_of_inner (hg : ∀ c ∈ gap, isGap c = true) (ht : t.Stands rest)
    (hb : t.isBoundary = false) :
    pieces (gap ++ (t.lexeme.toList ++ rest)) =
      (pieces rest).modifyHead (gap ++ t.lexeme.toList ++ ·) := by
  rw [pieces_eq hg ht, hb]
  rfl

end

/-- The pieces make up the text, and they are the pieces behind whose last tokens it is to be cut. -/
structure IsCut (text : List Char) (ps : List (List Char)) : Prop where
  flatten : ps.flatten = text
  tokens : ps.map tokenize = (segments (tokenize text)).map Segment.tokens
  endings : ∀ p ∈ ps, ∀ t ∈ (tokenize p).getLast?, t.isBoundary = true → t.lexeme.toList <:+ p

namespace IsCut

variable {gap rest : List Char} {t : Token} {ps : List (List Char)}

theorem head_isPrefix {text p : List Char} (h : IsCut text (p :: ps)) : p <+: text :=
  ⟨ps.flatten, h.flatten⟩

theorem of_gap (hg : ∀ c ∈ gap, isGap c = true) : IsCut gap [gap] where
  flatten := by simp
  tokens := by
    rw [tokenize_gap hg, segments_of_inner (by simp)]
    simp [tokenize_gap hg, Segment.tokens, Segment.unended]
  endings := by simp [tokenize_gap hg]

theorem of_boundary (hg : ∀ c ∈ gap, isGap c = true) (ht : t.Stands rest) (hb : t.isBoundary = true)
    (h : IsCut rest ps) :
    IsCut (gap ++ (t.lexeme.toList ++ rest)) ((gap ++ t.lexeme.toList) :: ps) := by
  have hx : tokenize (gap ++ t.lexeme.toList) = [t] := tokenize_single hg ht
  refine ⟨by simp [h.flatten], ?_, ?_⟩
  · rw [tokenize_piece hg ht, segments_cons_of_boundary hb, List.map_cons, List.map_cons, h.tokens, hx]
    rfl
  · refine List.forall_mem_cons.2 ⟨?_, h.endings⟩
    simp [hx]

theorem of_inner {p : List Char} (hg : ∀ c ∈ gap, isGap c = true) (ht : t.Stands rest)
    (hb : t.isBoundary = false) (h : IsCut rest (p :: ps)) :
    IsCut (gap ++ (t.lexeme.toList ++ rest)) ((gap ++ t.lexeme.toList ++ p) :: ps) := by
  have hx := tokenize_of_prefix hg ht h.head_isPrefix
  refine ⟨by simp [← h.flatten], ?_, ?_⟩
  · rw [tokenize_piece hg ht, segments_cons_of_inner hb, List.map_cons, hx]
    have hs := h.tokens
    cases hr : segments (tokenize rest) with
    | nil => simp [hr] at hs
    | cons g gs =>
      rw [hr] at hs
      simp only [List.map_cons, List.cons.injEq] at hs
      simp [hs.1, hs.2, Segment.tokens, Segment.cons]
  · refine List.forall_mem_cons.2 ⟨?_, fun q hq => h.endings q (List.mem_cons_of_mem _ hq)⟩
    intro e he hbe
    rw [hx, List.getLast?_cons] at he
    cases hl : (tokenize p).getLast? with
    | none =>
      obtain rfl : t = e := by simpa [hl] using he
      simp [hb] at hbe
    | some d =>
      obtain rfl : d = e := by simpa [hl] using he
      exact (h.endings p List.mem_cons_self d hl hbe).trans (List.suffix_append _ p)

theorem ne_nil {text : List Char} (h : IsCut text ps) : ps ≠ [] := by
  rintro rfl
  have hs := flatMap_tokens_segments (tokenize text)
  have hn : segments (tokenize text) = [] := by simpa using h.tokens.symm
  rw [hn] at hs
  rw [← hs, List.flatMap_nil, segments_of_inner (by simp)] at hn
  contradiction

end IsCut

theorem isCut_pieces (text : List Char) : IsCut text (pieces text) := by
  obtain ⟨w, rfl, h⟩ := exists_lexical_tokenize text
  generalize tokenize w.text = ts at h
  induction h with
  | last hg => exact pieces_gap hg ▸ .of_gap hg
  | @piece gap lexeme t w ts hg hl ht _ ih =>
    subst hl
    rw [Writing.text]
    cases hb : t.isBoundary with
    | true => exact pieces_of_boundary hg ht hb ▸ .of_boundary hg ht hb ih
    | false =>
      obtain ⟨p, ps, hp⟩ := List.exists_cons_of_ne_nil ih.ne_nil
      rw [pieces_of_inner hg ht hb, hp]
      exact .of_inner hg ht hb (hp ▸ ih)

def holdsStatement (text : List Char) : Bool :=
  (tokenize text).any fun t => !t.isBoundary || t.report?.isSome

theorem filter_holdsStatement_eq_nil {ps : List (List Char)} (h : ∀ p ∈ ps, holdsStatement p = false) :
    ps.filter holdsStatement = [] :=
  List.filter_eq_nil_iff.2 fun p hp => Bool.eq_false_iff.1 (h p hp)

theorem evaluate_of_mem_pieces {text p : List Char} (hp : p ∈ pieces text) (s : Session) :
    (holdsStatement p = true → ∃ o s', s.evaluate p = ([o], s')) ∧
      (holdsStatement p = false → s.evaluate p = ([], s)) := by
  have ht := List.mem_map_of_mem (f := tokenize) hp
  rw [(isCut_pieces text).tokens] at ht
  obtain ⟨g, -, hg⟩ := List.mem_map.1 ht
  rw [s.evaluate_eq_evaluateTokens, holdsStatement, ← hg, ← g.isAnswered_eq]
  constructor
  · intro ha
    obtain ⟨o, s', hs, -⟩ := g.exists_evaluateTokens_append s ha
    exact ⟨o, s', hs⟩
  · intro ha
    exact g.evaluateTokens_of_not_answered s ha (hg ▸ Lexer.finish_not_mem_tokens (.ofText p))

def statements (text : List Char) : List (List Char) := (pieces text).filter holdsStatement

theorem statements_gap {gap : List Char} (h : ∀ c ∈ gap, isGap c = true) : statements gap = [] := by
  simp [statements, pieces_gap h, holdsStatement, tokenize_gap h]

section
variable {gap rest : List Char} {t : Token}

theorem holdsStatement_single (hg : ∀ c ∈ gap, isGap c = true) (ht : t.Stands rest) :
    holdsStatement (gap ++ t.lexeme.toList) = (!t.isBoundary || t.report?.isSome) := by
  rw [holdsStatement, tokenize_single hg ht, List.any_cons, List.any_nil, Bool.or_false]

theorem holdsStatement_of_inner {p : List Char} (hg : ∀ c ∈ gap, isGap c = true) (ht : t.Stands rest)
    (hb : t.isBoundary = false) (hp : p <+: rest) :
    holdsStatement (gap ++ t.lexeme.toList ++ p) = true := by
  rw [holdsStatement, tokenize_of_prefix hg ht hp, List.any_cons, hb]
  rfl

end

/-- The stream has been read to the end of the piece and the other pieces are still to be read: the token that ends
the piece has been read, or there is none and the text is at its end. -/
inductive Closes (p : List Char) (ps : List (List Char)) (st : TokenStream) : Prop
  | ended : (tokenize p).getLast? = some st.current → st.current.isBoundary = true →
      st.current ≠ .finish → pieces st.reader.pending = ps → Closes p ps st
  | unended : (∀ t ∈ tokenize p, t.isBoundary = false) → ps = [] → st.current = .finish →
      st.reader.pending = [] → Closes p ps st

namespace Closes

variable {gap rest p : List Char} {t : Token} {ps : List (List Char)} {st : TokenStream}

theorem of_inner (hg : ∀ c ∈ gap, isGap c = true) (ht : t.Stands rest) (hb : t.isBoundary = false)
    (hp : p <+: rest) (h : Closes p ps st) : Closes (gap ++ t.lexeme.toList ++ p) ps st := by
  have hx := tokenize_of_prefix hg ht hp
  cases h with
  | ended hl hb' hf hr =>
    refine .ended ?_ hb' hf hr
    rw [hx, List.getLast?_cons, hl, Option.getD_some]
  | unended hi hr hf hn =>
    refine .unended ?_ hr hf hn
    rw [hx]
    exact List.forall_mem_cons.2 ⟨hb, hi⟩

theorem statements_eq (h : Closes p ps st) :
    statements st.reader.pending = ps.filter holdsStatement := by
  cases h with
  | ended _ _ _ hr => rw [statements, hr]
  | unended _ hr _ hn => rw [hr, hn, statements_gap (by simp), List.filter_nil]

end Closes

/-- A token that ends a statement is passed no more, so that what is reached there is what is left behind
the first piece. -/
theorem TokenSource.Reaches.closes {s t : TokenStream} (h : Reaches s t)
    (hs : s.current.isBoundary = false) (ht : t.current.isBoundary = true) {p : List Char}
    {ps : List (List Char)} (hp : pieces s.reader.pending = p :: ps) : Closes p ps t := by
  induction h generalizing p with
  | refl s => simp [hs] at ht
  | @step s t hb h ih =>
    change Reaches s.advance t at h
    by_cases hf : (Lexer.scan s.reader).1 = .finish
    · obtain rfl := h.eq_of_boundary (by rw [show TokenSource.current s.advance = .finish from hf]; rfl)
      have hg := List.dropWhile_eq_nil_iff.1 (Lexer.scan_eq_finish_iff.1 hf)
      obtain ⟨rfl, rfl⟩ := List.cons.inj ((pieces_gap hg).symm.trans hp)
      exact .unended (by simp [tokenize_gap hg]) rfl hf (Lexer.pending_of_scan_finish hf)
    · obtain ⟨gap, hg, hst, hr⟩ := Lexer.exists_pending_eq hf
      cases hb' : (Lexer.scan s.reader).1.isBoundary with
      | true =>
        obtain rfl := h.eq_of_boundary hb'
        rw [hr, pieces_of_boundary hg hst hb'] at hp
        obtain ⟨rfl, rfl⟩ := List.cons.inj hp
        exact .ended (by rw [tokenize_single hg hst]; rfl) hb' hf rfl
      | false =>
        rw [hr, pieces_of_inner hg hst hb'] at hp
        obtain ⟨q, qs, hq⟩ := List.exists_cons_of_ne_nil (isCut_pieces (Lexer.scan s.reader).2.pending).ne_nil
        rw [hq] at hp
        obtain ⟨rfl, rfl⟩ := List.cons.inj hp
        exact (ih hb' ht hq).of_inner hg hst hb' (hq ▸ isCut_pieces _).head_isPrefix

/-- A statement whose first token is the current one comes to what its piece of the text comes to by
itself. -/
theorem exists_statement_eq_evaluateTokens (n : Nat) (m : Store) {st : TokenStream}
    (hb : st.current.isBoundary = false) {p : List Char} {ps : List (List Char)}
    (hp : pieces st.reader.pending = p :: ps) :
    ∃ o st' m', Desk.statement n ⟨st, m⟩ = (o, ⟨st', m'⟩) ∧ Closes p ps st' ∧
      Session.evaluateTokens ⟨m, n⟩ (st.current :: tokenize p) = ([o], ⟨m', n⟩) := by
  have ht := (isCut_pieces st.reader.pending).tokens
  rw [hp] at ht
  cases hg : segments (tokenize st.reader.pending) with
  | nil => simp [hg] at ht
  | cons g gs =>
    rw [hg, List.map_cons, List.map_cons, List.cons.injEq] at ht
    obtain ⟨o, k, m', hs, he⟩ := Segment.exists_statement_eq n m hb hg
    obtain ⟨o', ⟨st', m''⟩, e, hd, he', hR⟩ := (simulation_deliversAlike.agree_statement n
      (d := ⟨st, m⟩) (e := ⟨st.current :: tokenize st.reader.pending, m⟩)
      ⟨⟨rfl, Lexer.tokens_eq_tokenize st.reader⟩, rfl⟩).eq_mk
    cases hs.symm.trans he'
    obtain rfl : m'' = m' := hR.2
    have hr := Desk.reaches_statement n ⟨st, m⟩
    have hb' := Desk.isBoundary_statement n ⟨st, m⟩
    rw [hd] at hr hb'
    exact ⟨o, st', m'', hd, hr.closes hb hb' hp, ht.1 ▸ he⟩

/-- Where reading on to the next outcome stops: at the end of a text without a statement, or behind the first piece
that holds one. -/
inductive Stops (n : Nat) (d : Desk TokenStream Store) : Option Outcome × Desk TokenStream Store → Prop
  | finished {st : TokenStream} : (∀ p ∈ pieces d.source.reader.pending, holdsStatement p = false) →
      st.current = .finish → st.reader.pending = [] → Stops n d (none, ⟨st, d.memory⟩)
  | answered {skipped after : List (List Char)} {p : List Char} {o : Outcome} {st : TokenStream} {m : Store} :
      pieces d.source.reader.pending = skipped ++ p :: after →
      (∀ q ∈ skipped, holdsStatement q = false) → holdsStatement p = true →
      Session.evaluate ⟨d.memory, n⟩ p = ([o], ⟨m, n⟩) → Closes p after st → Stops n d (some o, ⟨st, m⟩)

theorem Stops.of_head {n : Nat} {d : Desk TokenStream Store} {p : List Char} {after : List (List Char)}
    {o : Outcome} {st : TokenStream} {m : Store} (hp : pieces d.source.reader.pending = p :: after)
    (ha : holdsStatement p = true) (he : Session.evaluate ⟨d.memory, n⟩ p = ([o], ⟨m, n⟩))
    (hc : Closes p after st) : Stops n d (some o, ⟨st, m⟩) :=
  .answered (hp.trans (List.nil_append _).symm) (by simp) ha he hc

theorem Stops.skip {n : Nat} {d e : Desk TokenStream Store} {r : Option Outcome × Desk TokenStream Store}
    {q : List Char} (h : Stops n e r) (hm : e.memory = d.memory)
    (hp : pieces d.source.reader.pending = q :: pieces e.source.reader.pending)
    (hq : holdsStatement q = false) : Stops n d r := by
  cases h with
  | finished hs hf hn =>
    rw [hm]
    exact .finished (hp ▸ List.forall_mem_cons.2 ⟨hq, hs⟩) hf hn
  | answered hs hk ha he hc =>
    rw [hs, ← List.cons_append] at hp
    exact .answered hp (List.forall_mem_cons.2 ⟨hq, hk⟩) ha (hm ▸ he) hc

theorem Desk.exists_pending_advance {d : Desk TokenStream Store} (h : d.advance.current ≠ .finish) :
    ∃ gap, (∀ c ∈ gap, isGap c = true) ∧
      d.advance.current.Stands d.advance.source.reader.pending ∧
      d.source.reader.pending =
        gap ++ (d.advance.current.lexeme.toList ++ d.advance.source.reader.pending) :=
  Lexer.exists_pending_eq h

theorem stops_nextOutcome? (n : Nat) (d : Desk TokenStream Store) :
    Stops n d (Desk.nextOutcome? n d) := by
  fun_induction Desk.nextOutcome? n d with
  | case1 d e hf =>
    -- Nothing but gaps is left.
    have hm : e.memory = d.memory := Memory.note_of_report?_none (t := e.current) (by rw [hf]; rfl)
    have hg := List.dropWhile_eq_nil_iff.1 (Lexer.scan_eq_finish_iff.1 hf)
    have hr : Stops n d (none, ⟨e.source, e.memory⟩) := by
      rw [hm]
      refine .finished ?_ hf (Lexer.pending_of_scan_finish hf)
      rw [pieces_gap hg]
      exact List.forall_mem_singleton.2 (by simp [holdsStatement, tokenize_gap hg])
    exact hr
  | case2 d e hf r hr =>
    -- A mistake is a statement by itself.
    have hb := Token.isBoundary_of_report? hr
    obtain ⟨gap, hg, ht, hp⟩ := Desk.exists_pending_advance hf
    have hs := pieces_of_boundary hg ht hb
    have hx := tokenize_single hg ht
    have he := @Session.evaluateTokens_of_some ⟨d.memory, n⟩ [e.current] [e.current] _ _
      (Desk.nextOutcome?_of_report hr)
    rw [List.tail_cons, Session.evaluateTokens_nil] at he
    refine .of_head (hp ▸ hs) ?_ ?_ (.ended (by rw [hx]; rfl) hb hf rfl)
    · rw [holdsStatement_single hg ht, hr, Option.isSome_some, Bool.or_true]
    · rw [Session.evaluate_eq_evaluateTokens, hx]
      exact he
  | case3 d e hf hr hb ih =>
    -- A separator ends a piece without a statement.
    obtain ⟨gap, hg, ht, hp⟩ := Desk.exists_pending_advance hf
    refine ih.skip (Memory.note_of_report?_none hr) (hp ▸ pieces_of_boundary hg ht hb) ?_
    rw [holdsStatement_single hg ht, hr, hb]
    rfl
  | case4 d e hf hr hb out =>
    -- The statement begins with the token that has been read and goes on into the first piece behind it.
    have hb' : e.current.isBoundary = false := Bool.eq_false_iff.2 hb
    have hm : e.memory = d.memory := Memory.note_of_report?_none hr
    obtain ⟨gap, hg, ht, hp⟩ := Desk.exists_pending_advance hf
    obtain ⟨p, ps, hq⟩ := List.exists_cons_of_ne_nil (isCut_pieces e.source.reader.pending).ne_nil
    have hx := (hq ▸ isCut_pieces e.source.reader.pending).head_isPrefix
    have hs := pieces_of_inner hg ht hb'
    rw [← hp, hq, List.modifyHead_cons] at hs
    obtain ⟨o, st, m, ho, hc, he⟩ := exists_statement_eq_evaluateTokens n e.memory hb' hq
    have ho' : out = (o, ⟨st, m⟩) := ho
    rw [ho']
    refine .of_head hs (holdsStatement_of_inner hg ht hb' hx) ?_
      (hc.of_inner hg ht hb' hx)
    rw [Session.evaluate_eq_evaluateTokens, tokenize_of_prefix hg ht hx, ← hm]
    exact he

inductive ReadsOn (n : Nat) (d : Desk TokenStream Store) :
    Option Outcome × Desk TokenStream Store → Prop
  | finished {st : TokenStream} : statements d.source.reader.pending = [] →
      statements st.reader.pending = [] → ReadsOn n d (none, ⟨st, d.memory⟩)
  | answered {p : List Char} {ps : List (List Char)} {o : Outcome} {st : TokenStream} {m : Store} :
      statements d.source.reader.pending = p :: ps →
      Session.evaluate ⟨d.memory, n⟩ p = ([o], ⟨m, n⟩) → statements st.reader.pending = ps →
      ReadsOn n d (some o, ⟨st, m⟩)

theorem Stops.readsOn {n : Nat} {d : Desk TokenStream Store} {r : Option Outcome × Desk TokenStream Store}
    (h : Stops n d r) : ReadsOn n d r := by
  cases h with
  | finished hs _ hn =>
    refine .finished (filter_holdsStatement_eq_nil hs) ?_
    rw [hn, statements_gap (by simp)]
  | answered hs hk ha he hc =>
    refine .answered ?_ he hc.statements_eq
    rw [statements, hs, List.filter_append, filter_holdsStatement_eq_nil hk, List.nil_append,
      List.filter_cons_of_pos ha]

theorem readsOn_nextOutcome? (n : Nat) (d : Desk TokenStream Store) :
    ReadsOn n d (Desk.nextOutcome? n d) :=
  (stops_nextOutcome? n d).readsOn

end DeskCalculator
