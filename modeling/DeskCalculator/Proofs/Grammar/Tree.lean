import DeskCalculator.Proofs.SymbolTable.Environment
import DeskCalculator.Token.Basic

set_option autoImplicit false

namespace DeskCalculator

inductive Rank where
  | primary | term | expression
  deriving DecidableEq, Repr

inductive Multiplication where
  | times | dividedBy
  deriving DecidableEq, Repr

inductive Addition where
  | plus | minus
  deriving DecidableEq, Repr

def Multiplication.token : Multiplication → Token
  | .times => .star
  | .dividedBy => .slash

def Addition.token : Addition → Token
  | .plus => .plus
  | .minus => .minus

/-- Phrases by their rank. The second index tells whether a phrase ends in an assignment that no bracket
encloses. All that stands to the right of such an assignment belongs to it, so it can only come last. -/
inductive Tree : Rank → Bool → Type where
  | number : String → Float → Tree .primary false
  | name : String → Tree .primary false
  | assign {b : Bool} : String → Tree .expression b → Tree .primary true
  | minus {b : Bool} : Tree .primary b → Tree .primary b
  | bracket {b : Bool} : Tree .expression b → Tree .primary false
  | factor {b : Bool} : Tree .primary b → Tree .term b
  | product {b : Bool} : Tree .term false → Multiplication → Tree .primary b → Tree .term b
  | summand {b : Bool} : Tree .term b → Tree .expression b
  | sum {b : Bool} : Tree .expression false → Addition → Tree .term b → Tree .expression b

inductive Stop where
  | divideByZero | tooDeep
  deriving DecidableEq, Repr

def Stop.report : Stop → Report
  | .divideByZero => ⟨.arithmetic, "divide by 0"⟩
  | .tooDeep => ⟨.nesting, "expression nested too deeply"⟩

abbrev Walk := Environment → Except Stop Float × Environment

def Walk.value (x : Float) : Walk := fun ρ => (.ok x, ρ)

def Walk.stop (s : Stop) : Walk := fun ρ => (.error s, ρ)

def Walk.andThen (w : Walk) (f : Float → Walk) : Walk := fun ρ =>
  match w ρ with
  | (.ok x, ρ') => f x ρ'
  | (.error s, ρ') => (.error s, ρ')

theorem Walk.andThen_value (w : Walk) : w.andThen .value = w := by
  funext ρ
  unfold andThen
  split <;> rename_i h <;> rw [h]
  rfl

def Multiplication.walk (x y : Float) : Multiplication → Walk
  | .times => .value (x * y)
  | .dividedBy => if y == 0 then .stop .divideByZero else .value (x / y)

def Addition.walk (x y : Float) : Addition → Walk
  | .plus => .value (x + y)
  | .minus => .value (x - y)

namespace Tree

def tokens : {r : Rank} → {b : Bool} → Tree r b → List Token
  | _, _, .number digits x => [.number digits x]
  | _, _, .name id => [.name id]
  | _, _, .assign id e => .name id :: .equal :: e.tokens
  | _, _, .minus p => .minus :: p.tokens
  | _, _, .bracket e => .bracketOpen :: (e.tokens ++ [.bracketClose])
  | _, _, .factor p => p.tokens
  | _, _, .product t o p => t.tokens ++ o.token :: p.tokens
  | _, _, .summand t => t.tokens
  | _, _, .sum e o t => e.tokens ++ o.token :: t.tokens

def guarded (limit level : Nat) (w : Walk) : Walk :=
  if limit < level then .stop .tooDeep else w

/-- What a tree comes to at a level of nesting. The outermost primaries are at the first level. -/
def walk (limit : Nat) : {r : Rank} → {b : Bool} → Tree r b → (level : Nat) → Walk
  | _, _, .number _ x, level => guarded limit level (.value x)
  | _, _, .name id, level =>
    guarded limit level fun ρ => (.ok ((ρ.create id).value id), ρ.create id)
  | _, _, .assign id e, level =>
    guarded limit level fun ρ =>
      (e.walk limit (level + 1)).andThen (fun x ρ' => (.ok ((ρ'.store id x).value id), ρ'.store id x))
        (ρ.create id)
  | _, _, .minus p, level =>
    guarded limit level ((p.walk limit (level + 1)).andThen fun x => .value (-x))
  | _, _, .bracket e, level => guarded limit level (e.walk limit (level + 1))
  | _, _, .factor p, level => p.walk limit level
  | _, _, .product t o p, level =>
    (t.walk limit level).andThen fun x => (p.walk limit level).andThen fun y => o.walk x y
  | _, _, .summand t, level => t.walk limit level
  | _, _, .sum e o t, level =>
    (e.walk limit level).andThen fun x => (t.walk limit level).andThen fun y => o.walk x y

theorem tokens_ne_nil {r : Rank} {b : Bool} (t : Tree r b) : t.tokens ≠ [] := by
  induction t with
  | factor p ih => exact ih
  | summand t ih => exact ih
  | _ => simp [tokens]

theorem isBoundary_of_mem_tokens {r : Rank} {b : Bool} (t : Tree r b) :
    ∀ u ∈ t.tokens, u.isBoundary = false := by
  induction t with
  | number digits x => simp [tokens, Token.isBoundary, Token.kind]
  | name id => simp [tokens, Token.isBoundary, Token.kind]
  | assign id e ih => simpa [tokens, Token.isBoundary, Token.kind] using ih
  | minus p ih => simpa [tokens, Token.isBoundary, Token.kind] using ih
  | bracket e ih =>
    intro u hu
    simp only [tokens, List.mem_cons, List.mem_append, List.not_mem_nil, or_false] at hu
    obtain rfl | hu | rfl := hu
    · rfl
    · exact ih u hu
    · rfl
  | factor p ih => exact ih
  | product t o p iht ihp =>
    intro u hu
    simp only [tokens, List.mem_append, List.mem_cons] at hu
    obtain hu | rfl | hu := hu
    · exact iht u hu
    · cases o <;> rfl
    · exact ihp u hu
  | summand t ih => exact ih
  | sum e o t ihe iht =>
    intro u hu
    simp only [tokens, List.mem_append, List.mem_cons] at hu
    obtain hu | rfl | hu := hu
    · exact ihe u hu
    · cases o <;> rfl
    · exact iht u hu

end Tree

end DeskCalculator
