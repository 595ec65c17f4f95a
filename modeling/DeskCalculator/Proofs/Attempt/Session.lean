import DeskCalculator.Proofs.Attempt.Evaluation
import DeskCalculator.Proofs.Decimal.Quotient
import DeskCalculator.Proofs.Session.Segment

set_option autoImplicit false

namespace DeskCalculator

open Float.Model (UnpackedFloat)

namespace Attempt

def integerPart (x : Float) : Attempt Int :=
  match x.toModel.unpack with
  | .notANumber => throw .integerOfNaN
  | .infinity _ => throw .integerOfInfinity
  | .zero _ => pure 0
  | .finite s m e _ =>
    let v := Quotient.ofBinary m e
    pure (s.apply (v.num / v.den : Nat))

def isModerate (x : Float) : Bool :=
  match x.toModel.unpack with
  | .notANumber => false
  | .infinity _ => false
  | .zero _ => true
  | .finite _ m e _ =>
    let v := Quotient.ofBinary m e
    v.num < exactIntegerLimit * v.den

def isSame (x : Float) (n : Int) : Bool :=
  match x.toModel.unpack with
  | .notANumber => false
  | .infinity _ => false
  | .zero _ => n = 0
  | .finite s m e _ =>
    let v := Quotient.ofBinary m e
    s.apply v.num = n * v.den

def display (x : Float) : Attempt (List Char) := do
  if isModerate x then
    if isSame x (← integerPart x) then return Text.integerText (← integerPart x)
  return numberText x

end Attempt

theorem integerText_apply (s : UnpackedFloat.Sign) {n : Nat} (hn : 0 < n) :
    Text.integerText (s.apply n) = signed s (Nat.toDigits 10 n) := by
  cases s with
  | negative =>
    have hl : -(n : Int) < 0 := by omega
    rw [UnpackedFloat.Sign.apply, Text.integerText, if_pos hl, Int.natAbs_neg, Int.natAbs_natCast]
    rfl
  | positive =>
    have hl : ¬(n : Int) < 0 := by omega
    rw [UnpackedFloat.Sign.apply, Text.integerText, if_neg hl, Int.natAbs_natCast]
    rfl

theorem apply_eq_iff (s : UnpackedFloat.Sign) (v : Quotient) :
    s.apply v.num = s.apply (v.num / v.den : Nat) * v.den ↔ v.num % v.den = 0 := by
  have hd := Nat.div_add_mod v.num v.den
  have hc : (v.num : Int) = (v.num / v.den : Nat) * v.den ↔ v.num % v.den = 0 := by
    rw [← Int.natCast_mul, Int.natCast_inj, Nat.mul_comm]
    omega
  cases s with
  | negative => simpa only [UnpackedFloat.Sign.apply, Int.neg_mul, Int.neg_inj] using hc
  | positive => exact hc

theorem Attempt.display_eq (x : Float) : display x = pure (displayText x) := by
  unfold display isModerate isSame integerPart displayText displayedInteger?
  cases hx : x.toModel.unpack with
  | notANumber => rfl
  | infinity s => rfl
  | zero s => rfl
  | finite s m e hm =>
    have hn := Quotient.num_pos hm e
    have hd := Quotient.den_pos m e
    simp only [wholeValue?_eq, pure_bind, apply_eq_iff, decide_eq_true_eq]
    generalize Quotient.ofBinary m e = v at hn hd
    by_cases hw : v.num % v.den = 0
    · have hq : 0 < v.num / v.den :=
        Nat.div_pos (Nat.le_of_dvd hn (Nat.dvd_of_mod_eq_zero hw)) hd
      have hl : v.num < exactIntegerLimit * v.den ↔ v.num / v.den < exactIntegerLimit :=
        (Nat.div_lt_iff_lt_mul hd).symm
      simp only [hw, if_true, hl]
      split
      · simp only [integerText_apply s hq]
      · rfl
    · simp only [hw, if_false]
      split <;> rfl

def Outcome.attemptPrinted : Outcome → Attempt String
  | .ok x => do return String.ofList (← Attempt.display x) ++ "\n"
  | .error _ => pure ""

theorem Outcome.attemptPrinted_eq (o : Outcome) : o.attemptPrinted = pure o.printed := by
  cases o with
  | ok x =>
    rw [attemptPrinted, Attempt.display_eq, pure_bind]
    rfl
  | error r => rfl

theorem Outcome.join_printed (os : List Outcome) :
    String.join (os.map printed) =
      String.join ((os.filterMap Except.toOption).map fun x => String.ofList (displayText x) ++ "\n") := by
  induction os with
  | nil => rfl
  | cons o os ih =>
    cases o with
    | ok x => simp [ih, printed, Except.toOption]
    | error r =>
      rw [List.filterMap_cons_none rfl, List.map_cons, String.join_cons, printed, String.empty_append, ih]

def LooseDesk.printing (levels : Nat) (out : String) (d : LooseDesk) : Attempt (String × LooseDesk) := do
  match ← nextOutcome? levels d with
  | (none, d') => pure (out, d')
  | (some o, d') =>
    let line ← o.attemptPrinted
    if _h : d'.rest < d.rest then printing levels (out ++ line) d' else throw .standstill
termination_by d.rest

theorem LooseDesk.printing_loose (n : Nat) (out : String) (d : Desk TokenStream Store) :
    printing n out d.loose =
      pure (out ++ String.join ((Desk.outcomes n d).1.map Outcome.printed),
        (Desk.outcomes n d).2.loose) := by
  fun_induction Desk.outcomes n d generalizing out with
  | case1 d d' hd =>
    rw [printing, nextOutcome?_loose, hd, pure_bind]
    simp [String.join]
  | case2 d o d' hd others ih =>
    have hs : d'.loose.rest < d.loose.rest := Desk.rest_nextOutcome?_lt hd
    rw [printing, nextOutcome?_loose, hd, pure_bind]
    simp only [Prod.map, id, Outcome.attemptPrinted_eq, pure_bind, dif_pos hs, ih]
    simp [String.append_assoc, others]

namespace Session

def attemptEvaluate (s : Session) (text : List Char) : Attempt (List Outcome × Session) := do
  let run ← LooseDesk.outcomes s.levels ⟨.ofText text, ⟨.finish, "", none, none⟩, s.store⟩
  return (run.1, { s with store := run.2.store })

def attemptCalculate (s : Session) (text : List Char) : Attempt (String × Session) := do
  let run ← LooseDesk.printing s.levels "" ⟨.ofText text, ⟨.finish, "", none, none⟩, s.store⟩
  return (run.1, { s with store := run.2.store })

/-- No text makes a session break down, and each comes to its end: what is attempted is what the session
does. Every statement with something to answer has an outcome, and the values among the outcomes are
printed. -/
theorem never_breaks_down (s : Session) (text : List Char) :
    s.attemptEvaluate text = pure (s.evaluate text) ∧
      s.attemptCalculate text = pure (s.calculate text) ∧
      (s.evaluate text).1.length =
        ((segments (tokenize text)).filter Segment.isAnswered).length ∧
      (s.calculate text).1 =
        String.join (((s.evaluate text).1.filterMap Except.toOption).map fun x =>
          String.ofList (displayText x) ++ "\n") := by
  have hd : (⟨.ofText text, ⟨.finish, "", none, none⟩, s.store⟩ : LooseDesk) =
      Desk.loose ⟨.ofText text, s.store⟩ := rfl
  refine ⟨?_, ?_, ?_, ?_⟩
  · rw [attemptEvaluate, hd, LooseDesk.outcomes_loose, pure_bind]
    rfl
  · rw [attemptCalculate, hd, LooseDesk.printing_loose, pure_bind, String.empty_append]
    rfl
  · exact (answers_tokenize s text).forall₂.length_eq.symm
  · exact Outcome.join_printed (s.evaluate text).1

end Session

end DeskCalculator
