import DeskCalculator.Text.Integer

set_option autoImplicit false

namespace DeskCalculator.Depth

def default : Nat := 100

def callsPerLevel : Nat := 4

def reservedCalls : Nat := 250

def defaultCalls : Nat := 1000

/-- The greatest depth that may be asked for if so many calls may be pending: one at least. -/
def limit (calls : Nat) : Nat := max 1 ((calls - reservedCalls) / callsPerLevel)

structure OutOfRange where
  limit : Nat
  given : Int
  deriving DecidableEq, Repr

def OutOfRange.message (e : OutOfRange) : String :=
  "max depth must be between 1 and " ++ String.ofList (Text.integerText e.limit) ++
    ", got " ++ String.ofList (Text.integerText e.given)

def check (calls : Nat) (given : Int) : Except OutOfRange Nat :=
  if 1 ≤ given ∧ given ≤ limit calls then .ok given.toNat
  else .error { limit := limit calls, given }

end DeskCalculator.Depth
