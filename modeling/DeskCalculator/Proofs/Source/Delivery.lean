import DeskCalculator.Proofs.Evaluation.Reports
import DeskCalculator.Proofs.Lexicon.Joining
import DeskCalculator.Proofs.Lexicon.ReadAhead
import DeskCalculator.Token.Stream
import Mathlib.Data.List.Induction

set_option autoImplicit false

namespace DeskCalculator

inductive Request
  | next
  | advance
  | peek
  deriving DecidableEq

def Request.reads : Request → Bool
  | .next | .advance => true
  | .peek => false

namespace Desk

variable (d : Desk TokenStream Store)

def request : Request → Token × Desk TokenStream Store
  | .next =>
    let read := d.source.next
    (read.1, { source := read.2, memory := Memory.note d.memory read.1 })
  | .advance => (d.advance.current, d.advance)
  | .peek => (d.current, d)

def requests (rs : List Request) : Desk TokenStream Store := rs.foldl (fun d r => (d.request r).2) d

variable {d} {r : Request}

theorem requests_append_singleton (rs : List Request) (r : Request) :
    d.requests (rs ++ [r]) = ((d.requests rs).request r).2 :=
  List.foldl_append

theorem request_of_reads (h : r.reads = true) :
    (d.request r).1 = (Lexer.scan d.source.reader).1 ∧
      (d.request r).2.source.reader = (Lexer.scan d.source.reader).2 ∧
      (d.request r).2.memory = Memory.note d.memory (Lexer.scan d.source.reader).1 := by
  cases r with
  | next => exact ⟨rfl, rfl, rfl⟩
  | advance => exact ⟨rfl, rfl, rfl⟩
  | peek => contradiction

theorem request_of_not_reads (h : r.reads = false) : d.request r = (d.current, d) := by
  cases r with
  | next | advance => contradiction
  | peek => rfl

theorem current_request (h : r ≠ .advance) : (d.request r).2.current = d.current := by
  cases r with
  | next | peek => rfl
  | advance => contradiction

theorem reader_requests (d : Desk TokenStream Store) (rs : List Request) :
    (d.requests rs).source.reader = Lexer.skip (rs.countP Request.reads) d.source.reader := by
  induction rs using List.reverseRecOn with
  | nil => rfl
  | append_singleton rs r ih =>
    rw [requests_append_singleton, List.countP_append, List.countP_singleton]
    cases hr : r.reads with
    | false => simpa [request_of_not_reads hr] using ih
    | true =>
      rw [if_pos rfl, Lexer.skip_succ, ← ih]
      exact (request_of_reads hr).2.1

theorem reports_requests (d : Desk TokenStream Store) (rs : List Request) :
    (d.requests rs).memory.reports = d.memory.reports ++
      ((Lexer.tokens d.source.reader).take (rs.countP Request.reads)).filterMap Token.report? := by
  induction rs using List.reverseRecOn with
  | nil => simp [requests]
  | append_singleton rs r ih =>
    rw [requests_append_singleton, List.countP_append, List.countP_singleton]
    cases hr : r.reads with
    | false => simpa [request_of_not_reads hr] using ih
    | true =>
      rw [if_pos rfl, (request_of_reads hr).2.2, Store.reports_note, ih, reader_requests, Lexer.scan_skip,
        List.take_add_one, List.filterMap_append, List.append_assoc, List.getD_eq_getElem?_getD]
      cases (Lexer.tokens d.source.reader)[rs.countP Request.reads]? with
      | none => rfl
      | some t => cases ht : t.report? <;> simp [ht]

theorem current_requests (d : Desk TokenStream Store) (rs : List Request) :
    .advance ∉ rs ∧ (d.requests rs).current = d.current ∨
      ∃ before after, rs = before ++ .advance :: after ∧ .advance ∉ after ∧
        (d.requests rs).current =
          (Lexer.tokens d.source.reader).getD (before.countP Request.reads) .finish := by
  induction rs using List.reverseRecOn with
  | nil => exact .inl ⟨by simp, rfl⟩
  | append_singleton rs r ih =>
    rw [requests_append_singleton]
    by_cases hr : r = .advance
    · subst hr
      refine .inr ⟨rs, [], rfl, by simp, ?_⟩
      rw [← Lexer.scan_skip, ← reader_requests]
      rfl
    · rw [current_request hr]
      obtain ⟨hn, hc⟩ | ⟨before, after, rfl, hn, hc⟩ := ih
      · exact .inl ⟨by simp [hn, Ne.symm hr], hc⟩
      · exact .inr ⟨before, after ++ [r], by simp, by simp [hn, Ne.symm hr], hc⟩

end Desk

theorem Writing.Lexical.taken_skip {w : Writing} {ts : List Token} (h : w.Lexical ts) (k : Nat) :
    (Lexer.skip k (.ofText w.text)).taken = (w.upTo k).length +
      if ((Token.finish :: ts).getD k .finish).looksAhead = true ∧ w.upTo k ≠ w.text then 1 else 0 := by
  have hs := h.upTo_append_pending k (r := .ofText w.text) rfl
  have hl := congrArg List.length hs
  have hn : (Lexer.skip k (.ofText w.text)).pending ≠ [] ↔ w.upTo k ≠ w.text := by
    rw [not_iff_not]
    constructor
    · intro he
      rwa [he, List.append_nil] at hs
    · intro he
      rwa [he, List.append_right_eq_self] at hs
  rw [List.length_append] at hl
  cases k with
  | zero => simp [Lexer.skip, Reader.ofText, upTo, Token.looksAhead]
  | succ k =>
    have ht := Lexer.scan_skip k (.ofText w.text)
    rw [h.tokens_eq rfl] at ht
    have hx := (Lexer.leaves_scan (Lexer.skip k (.ofText w.text))).taken_add_pending
    rw [← Lexer.skip_succ, Lexer.extent_skip, Reader.extent_ofText, ht] at hx
    rw [List.getD_cons_succ]
    simp only [hn] at hx
    omega

/-- In whatever way a text is asked for tokens, the next request is answered by the next of its tokens, or by the
end behind the last, and the current token is the one that became so last. The reports are those of the tokens
that have been read. The text has been read to the end of the last of them, and one character further where it
goes on and only that character shows the end. No character is ever put back where there is no room for it. -/
theorem delivers_requests (text : List Char) (m : Store) (rs : List Request) :
    let token := fun k => (tokenize text).getD k .finish
    let read := rs.countP Request.reads
    let d := (Desk.mk (TokenStream.ofText text) m).requests rs
    (∀ r : Request, (d.request r).1 = if r.reads then token read else d.current) ∧
    (d.request .peek).2 = d ∧
    (.advance ∉ rs ∧ d.current = .finish ∨
      ∃ before after, rs = before ++ .advance :: after ∧ .advance ∉ after ∧
        d.current = token (before.countP Request.reads)) ∧
    d.memory.log.reports.toList =
      m.log.reports.toList ++ ((tokenize text).take read).filterMap Token.report? ∧
    (∃ w : Writing, w.text = text ∧ w.Lexical (tokenize text) ∧
      d.source.taken =
        if (tokenize text).length < read then text.length
        else
          (w.upTo read).length +
            if ((Token.finish :: tokenize text).getD read .finish).looksAhead = true ∧ w.upTo read ≠ text then 1
            else 0) ∧
    Lexer.scan? d.source.reader = some (Lexer.scan d.source.reader) := by
  intro token read d
  have hr : d.source.reader = Lexer.skip read (.ofText text) := Desk.reader_requests _ rs
  refine ⟨?_, rfl, Desk.current_requests _ rs, Desk.reports_requests _ rs, ?_, Lexer.scan?_eq _⟩
  · intro r
    cases hb : r.reads with
    | false => rw [Desk.request_of_not_reads hb, if_neg Bool.false_ne_true]
    | true =>
      rw [(Desk.request_of_reads hb).1, hr, if_pos rfl]
      exact Lexer.scan_skip read (.ofText text)
  · obtain ⟨w, rfl, h⟩ := exists_lexical_tokenize text
    have ht : d.source.taken = (Lexer.skip read (.ofText w.text)).taken := by rw [← hr]; rfl
    refine ⟨w, rfl, h, ?_⟩
    rw [ht, h.taken_skip]
    by_cases hl : (tokenize w.text).length < read
    · rw [if_pos hl, h.upTo_of_length_lt hl, if_neg (by simp), Nat.add_zero]
    · rw [if_neg hl]

end DeskCalculator
