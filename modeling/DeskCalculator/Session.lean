import DeskCalculator.Depth
import DeskCalculator.Display
import DeskCalculator.Statement
import DeskCalculator.Token.Stream

/-!
Sessions. Every text that is evaluated in a session works on the same variables and the same reports;
several texts may be read in turns.
-/
set_option autoImplicit false

namespace DeskCalculator

def Outcome.printed : Outcome → String
  | .ok x => String.ofList (displayText x) ++ "\n"
  | .error _ => ""

structure Session where
  store : Store := {}
  levels : Nat := Depth.default

namespace Session

def errorCount (s : Session) : Nat := s.store.log.count

/-- Reads on in a text to the outcome of the next statement. When none is left there is no outcome, and
nothing changes. -/
def next (s : Session) (stream : TokenStream) : Option Outcome × TokenStream × Session :=
  let step := Desk.nextOutcome? s.levels { source := stream, memory := s.store }
  (step.1, step.2.source, { s with store := step.2.memory })

def evaluate (s : Session) (text : List Char) : List Outcome × Session :=
  let run := Desk.outcomes s.levels { source := TokenStream.ofText text, memory := s.store }
  (run.1, { s with store := run.2.memory })

def calculate (s : Session) (text : List Char) : String × Session :=
  let run := s.evaluate text
  (String.join (run.1.map Outcome.printed), run.2)

def set (s : Session) (name : String) (x : Float) : Session :=
  let symbols := (s.store.symbols.declare name).assign name x
  { s with store := { s.store with symbols } }

end Session

end DeskCalculator
