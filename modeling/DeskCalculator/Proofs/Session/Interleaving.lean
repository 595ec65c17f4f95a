import DeskCalculator.Proofs.Session.Piece
import Mathlib.Logic.Function.Basic

set_option autoImplicit false

namespace DeskCalculator

inductive Turn (ι : Type)
  | start (i : ι) (text : List Char)
  | next (i : ι)
  | evaluate (text : List Char)
  | set (name : String) (x : Float)

/-- A way to keep the texts of which some statements are still to be answered. -/
structure Keeping (σ : Type) where
  start : List Char → σ
  next : Session → σ → Option (List Outcome) × σ × Session

def Keeping.reading : Keeping TokenStream where
  start := .ofText
  next s stream :=
    let step := s.next stream
    (step.1.map ([·]), step.2)

def Keeping.queueing : Keeping (List (List Char)) where
  start := statements
  next s
    | [] => (none, [], s)
    | p :: ps =>
      let run := s.evaluate p
      (some run.1, ps, run.2)

structure Bench (ι σ : Type) where
  session : Session
  texts : ι → σ

namespace Bench

variable {ι σ : Type}

def turn [DecidableEq ι] (k : Keeping σ) (b : Bench ι σ) : Turn ι → Option (List Outcome) × Bench ι σ
  | .start i text => (some [], { b with texts := Function.update b.texts i (k.start text) })
  | .next i =>
    let step := k.next b.session (b.texts i)
    (step.1, { session := step.2.2, texts := Function.update b.texts i step.2.1 })
  | .evaluate text =>
    let run := b.session.evaluate text
    (some run.1, { b with session := run.2 })
  | .set name x => (some [], { b with session := b.session.set name x })

/-- The outcomes of each turn, and the session that it leaves. -/
def course [DecidableEq ι] (k : Keeping σ) (b : Bench ι σ) :
    List (Turn ι) → List (Option (List Outcome) × Session)
  | [] => []
  | t :: ts =>
    let step := b.turn k t
    (step.1, step.2.session) :: course k step.2 ts

def left (b : Bench ι TokenStream) : Bench ι (List (List Char)) where
  session := b.session
  texts i := statements (b.texts i).reader.pending

end Bench

theorem Keeping.queueing_next (s : Session) (st : TokenStream) :
    queueing.next s (statements st.reader.pending) =
      ((reading.next s st).1, statements (reading.next s st).2.1.reader.pending,
        (reading.next s st).2.2) := by
  have h := readsOn_nextOutcome? s.levels ⟨st, s.store⟩
  simp only [reading, Session.next]
  generalize Desk.nextOutcome? s.levels ⟨st, s.store⟩ = r at h
  cases h with
  | finished hn hn' =>
    rw [hn, hn']
    rfl
  | answered hp he hps =>
    rw [hp, hps]
    simp only [queueing, he, Option.map_some]

namespace Bench

variable {ι : Type} [DecidableEq ι]

theorem left_update (s : Session) (texts : ι → TokenStream) (i : ι) (st : TokenStream) :
    left ⟨s, Function.update texts i st⟩ =
      ⟨s, Function.update (left ⟨s, texts⟩).texts i (statements st.reader.pending)⟩ :=
  congrArg (Bench.mk s) (Function.comp_update (fun st : TokenStream => statements st.reader.pending) texts i st)

theorem turn_left (b : Bench ι TokenStream) (t : Turn ι) :
    b.left.turn .queueing t = ((b.turn .reading t).1, (b.turn .reading t).2.left) := by
  cases t with
  | start i text =>
    simp only [turn, left_update]
    rfl
  | next i =>
    have hn := Keeping.queueing_next b.session (b.texts i)
    simp only [turn, left_update]
    rw [show b.left.session = b.session from rfl,
      show b.left.texts i = statements (b.texts i).reader.pending from rfl, hn]
    rfl
  | evaluate text => rfl
  | set name x => rfl

theorem course_left (b : Bench ι TokenStream) (ts : List (Turn ι)) :
    b.left.course .queueing ts = b.course .reading ts := by
  induction ts generalizing b with
  | nil => rfl
  | cons t ts ih =>
    simp only [course, b.turn_left t, ih]
    rfl

/-- Every turn has the same outcomes and leaves the same session, whether the texts are read on in turns or
the pieces that hold their statements are evaluated by themselves. -/
theorem course_reading (s : Session) (texts : ι → List Char) (ts : List (Turn ι)) :
    course .reading ⟨s, fun i => .ofText (texts i)⟩ ts =
        course .queueing ⟨s, fun i => statements (texts i)⟩ ts ∧
      ∀ text, IsCut text (pieces text) ∧ statements text = (pieces text).filter holdsStatement ∧
        ∀ p ∈ pieces text, ∀ s : Session,
          (holdsStatement p = true → ∃ o s', s.evaluate p = ([o], s')) ∧
            (holdsStatement p = false → s.evaluate p = ([], s)) :=
  ⟨(course_left ⟨s, fun i => .ofText (texts i)⟩ ts).symm, fun text =>
    ⟨isCut_pieces text, rfl, fun _ => evaluate_of_mem_pieces⟩⟩

end Bench

end DeskCalculator
