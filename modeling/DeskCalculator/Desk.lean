import DeskCalculator.Memory
import DeskCalculator.Token.Source

set_option autoImplicit false

namespace DeskCalculator

/-- The value that stands for a result that failed. -/
def fallbackValue : Float := 1.0

/-- What comes of evaluating: a value, or the report of the mistake that it failed on. -/
abbrev Outcome := Except Report Float

def Outcome.value : Outcome → Float
  | .ok x => x
  | .error _ => fallbackValue

structure Desk (τ μ : Type) where
  source : τ
  memory : μ

namespace Desk

variable {τ μ : Type}

section
variable [TokenSource τ]

def current (d : Desk τ μ) : Token := TokenSource.current d.source

def Reaches (d d' : Desk τ μ) : Prop := TokenSource.Reaches d.source d'.source

theorem Reaches.refl (d : Desk τ μ) : d.Reaches d := TokenSource.Reaches.refl _

theorem Reaches.trans {d d' d'' : Desk τ μ} (h : d.Reaches d') (h' : d'.Reaches d'') :
    d.Reaches d'' := TokenSource.Reaches.trans h h'

end

section
variable [Memory μ]

def declare (d : Desk τ μ) (name : String) : Desk τ μ :=
  { d with memory := Memory.declare d.memory name }

def valueOf (d : Desk τ μ) (name : String) : Float := Memory.valueOf d.memory name

def assign (d : Desk τ μ) (name : String) (x : Float) : Desk τ μ :=
  { d with memory := Memory.assign d.memory name x }

def fail (d : Desk τ μ) (c : Cause) : Outcome × Desk τ μ :=
  (.error c.report, { d with memory := Memory.report d.memory c.report })

@[simp] theorem source_declare (d : Desk τ μ) (name : String) :
    (d.declare name).source = d.source := rfl

@[simp] theorem source_assign (d : Desk τ μ) (name : String) (x : Float) :
    (d.assign name x).source = d.source := rfl

@[simp] theorem source_fail (d : Desk τ μ) (c : Cause) : (d.fail c).2.source = d.source := rfl

end

variable [TokenSource τ] [Memory μ]

def advance (d : Desk τ μ) : Desk τ μ where
  source := TokenSource.advance d.source
  memory := Memory.note d.memory (TokenSource.current (TokenSource.advance d.source))

@[simp] theorem source_advance (d : Desk τ μ) :
    d.advance.source = TokenSource.advance d.source := rfl

theorem Reaches.advance {d : Desk τ μ} (h : d.current.isBoundary = false) :
    d.Reaches d.advance := TokenSource.Reaches.advance h

end Desk

end DeskCalculator
