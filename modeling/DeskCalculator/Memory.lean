import DeskCalculator.SymbolTable
import DeskCalculator.Token.Basic

set_option autoImplicit false

namespace DeskCalculator

class Memory (μ : Type) where
  declare : μ → String → μ
  valueOf : μ → String → Float
  assign : μ → String → Float → μ
  report : μ → Report → μ

def Memory.note {μ : Type} [Memory μ] (m : μ) (t : Token) : μ :=
  match t.report? with
  | some r => report m r
  | none => m

structure Store where
  symbols : SymbolTable := .builtins
  log : ErrorLog := {}
  deriving DecidableEq

instance : Memory Store where
  declare s name := { s with symbols := s.symbols.declare name }
  valueOf s name := s.symbols.valueOf name
  assign s name x := { s with symbols := s.symbols.assign name x }
  report s r := { s with log := s.log.add r }

end DeskCalculator
