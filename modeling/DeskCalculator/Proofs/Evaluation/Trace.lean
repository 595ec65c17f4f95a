import DeskCalculator.Proofs.Evaluation.Invariant
import DeskCalculator.Proofs.Evaluation.Replay
import DeskCalculator.Proofs.Session.Tokens

/-!
What a statement does to the variables, effect by effect. Main statements: over a part of a statement a name is
looked up as its token is passed, and a value is stored for a name just when the right side of an assignment to
it has come out with this value.
-/
set_option autoImplicit false

namespace DeskCalculator

def Token.name? : Token → Option String
  | .name id => some id
  | _ => none

theorem Token.name?_of_ne {t : Token} (h : ∀ id, t ≠ .name id) : t.name? = none := by
  cases t with
  | name id => exact absurd rfl (h id)
  | _ => rfl

def Token.names (ts : List Token) : List String := ts.filterMap Token.name?

theorem Token.mem_names {ts : List Token} {id : String} : id ∈ names ts ↔ .name id ∈ ts := by
  simp only [names, List.mem_filterMap]
  constructor
  · rintro ⟨t, ht, hi⟩
    cases t <;> cases hi
    exact ht
  · exact fun h => ⟨_, h, rfl⟩

theorem Token.names_append_name (ts : List Token) (id : String) :
    names (ts ++ [.name id]) = names ts ++ [id] :=
  List.filterMap_append

theorem Token.names_append_of_ne (ts : List Token) {t : Token} (h : ∀ id, t ≠ .name id) :
    names (ts ++ [t]) = names ts := by
  simp [names, name?_of_ne h]

/-- Variables, and all that has been done to them since they were noted down. -/
structure Traced where
  symbols : SymbolTable
  effects : List Effect

instance : Memory Traced where
  declare m name := { symbols := m.symbols.declare name, effects := m.effects ++ [.lookup name] }
  valueOf m name := m.symbols.valueOf name
  assign m name x := { symbols := m.symbols.assign name x, effects := m.effects ++ [.store name x] }
  report m _ := m

namespace Traced

def after (t : SymbolTable) (es : List Effect) : Traced := { symbols := t.replay es, effects := es }

theorem declare_after (t : SymbolTable) (es : List Effect) (name : String) :
    Memory.declare (after t es) name = after t (es ++ [.lookup name]) := by
  simp only [after, Memory.declare, SymbolTable.replay_append_singleton, Effect.apply]

theorem assign_after (t : SymbolTable) (es : List Effect) (name : String) (x : Float) :
    Memory.assign (after t es) name x = after t (es ++ [.store name x]) := by
  simp only [after, Memory.assign, SymbolTable.replay_append_singleton, Effect.apply]

@[simp] theorem note_eq (m : Traced) (t : Token) : Memory.note m t = m := by
  unfold Memory.note
  split <;> rfl

end Traced

section
variable {τ : Type} [TokenSource τ]

def Traces (d : Desk τ Traced) (e : Desk τ Store) : Prop :=
  d.source = e.source ∧ d.memory.symbols = e.memory.symbols

theorem symbols_note (m : Store) (t : Token) : (Memory.note m t).symbols = m.symbols := by
  unfold Memory.note
  split <;> rfl

theorem Traces.advance {d : Desk τ Traced} {e : Desk τ Store} (h : Traces d e) :
    Traces d.advance e.advance := by
  refine ⟨congrArg TokenSource.advance h.1, ?_⟩
  simp only [Desk.advance, Traced.note_eq, symbols_note]
  exact h.2

theorem simulation_traces : Simulation Eq (Traces (τ := τ)) where
  current h := by
    rw [Desk.current, Desk.current, h.1]
    exact .refl _
  advance h _ := h.advance
  declare h hv := ⟨h.1, by subst hv; exact congrArg (SymbolTable.declare · _) h.2⟩
  valueOf h hv := by subst hv; exact congrArg (SymbolTable.valueOf · _) h.2
  assign h hv := ⟨h.1, by subst hv; exact congrArg (SymbolTable.assign · _ _) h.2⟩
  fail h := h

end

/-- An assignment among the tokens, which are read with the variables of the table. Its name was looked up as the
one before its right side, this came out with the value, and all that had been done by then is `before`. -/
def Completed (ts : List Token) (t : SymbolTable) (before : List Effect) (name : String) (x : Float) :
    Prop :=
  ∃ (pre post : List Token) (es : List Effect) (levels : Nat) (d : Desk (List Token) Traced),
    ts = pre ++ .name name :: .equal :: post ∧ lookedUp es = Token.names pre ∧
      (Part.expression levels).run ⟨post, .after t (es ++ [.lookup name])⟩ = (.ok x, d) ∧
      d.memory.effects = before

namespace Desk

/-- The desk has come to where it is from the tokens and the variables of the table. -/
structure Follows (ts : List Token) (t : SymbolTable) (d : Desk (List Token) Traced) : Prop where
  lookups : ∃ read, ts = read ++ d.source ∧ lookedUp d.memory.effects = Token.names read
  memory : d.memory = .after t d.memory.effects
  stores : EachStore (Completed ts t) d.memory.effects

variable {ts : List Token} {t : SymbolTable} {d d' : Desk (List Token) Traced} {name : String}

theorem follows_start (ts : List Token) (t : SymbolTable) : Follows ts t ⟨ts, .after t []⟩ where
  lookups := ⟨[], rfl, rfl⟩
  memory := rfl
  stores := eachStore_nil _

@[simp] theorem memory_advance_traced (d : Desk (List Token) Traced) : d.advance.memory = d.memory :=
  Traced.note_eq _ _

theorem effects_declare (d : Desk (List Token) Traced) (name : String) :
    (d.declare name).memory.effects = d.memory.effects ++ [.lookup name] := rfl

theorem effects_assign (d : Desk (List Token) Traced) (name : String) (x : Float) :
    (d.assign name x).memory.effects = d.memory.effects ++ [.store name x] := rfl

theorem Follows.memory_declare (h : Follows ts t d) (name : String) :
    (d.declare name).memory = .after t (d.memory.effects ++ [.lookup name]) := by
  rw [← Traced.declare_after, ← h.memory]
  rfl

theorem Follows.memory_assign (h : Follows ts t d) (name : String) (x : Float) :
    (d.assign name x).memory = .after t (d.memory.effects ++ [.store name x]) := by
  rw [← Traced.assign_after, ← h.memory]
  rfl

theorem Follows.pass (h : Follows ts t d) (hb : d.current.isBoundary = false)
    (hn : ∀ name, d.current ≠ .name name) : Follows ts t d.advance := by
  obtain ⟨read, hr, hl⟩ := h.lookups
  refine ⟨⟨read ++ [d.current], ?_, ?_⟩, ?_, ?_⟩
  · rw [hr, source_eq_cons hb]
    simp
  · rw [Token.names_append_of_ne _ hn, memory_advance_traced, hl]
  · rw [memory_advance_traced]
    exact h.memory
  · rw [memory_advance_traced]
    exact h.stores

theorem Follows.lookup (h : Follows ts t d) (hc : d.current = .name name) :
    Follows ts t (d.declare name).advance := by
  obtain ⟨read, hr, hl⟩ := h.lookups
  refine ⟨⟨read ++ [.name name], ?_, ?_⟩, ?_, ?_⟩
  · rw [hr, source_eq_cons (by rw [hc]; rfl), hc]
    simp
  · rw [memory_advance_traced, effects_declare, lookedUp_append, hl, Token.names_append_name]
    rfl
  · rw [memory_advance_traced, h.memory_declare]
    rfl
  · rw [memory_advance_traced, effects_declare, eachStore_append_singleton]
    exact ⟨h.stores, by simp⟩

/-- When an assignment is completed there is no doubt which it is: as many names were looked up before it as
stand before it. -/
theorem Follows.completed {k : Nat} {x : Float} (h : Follows ts t d) (hc : d.current = .name name)
    (he : (d.declare name).advance.current = .equal)
    (hr : (Part.expression k).run (d.declare name).advance.advance = (.ok x, d')) :
    Completed ts t d'.memory.effects name x := by
  obtain ⟨read, hs, hl⟩ := h.lookups
  have h₁ : d.source = .name name :: (d.declare name).advance.source := by
    rw [source_eq_cons (by rw [hc]; rfl), hc]
    rfl
  have h₂ := source_eq_cons (d := (d.declare name).advance) (by rw [he]; rfl)
  have hd : (d.declare name).advance.advance =
      ⟨(d.declare name).advance.advance.source, .after t (d.memory.effects ++ [.lookup name])⟩ := by
    rw [← h.memory_declare, ← memory_advance_traced (d.declare name), ← memory_advance_traced (d.declare name).advance]
  refine ⟨read, (d.declare name).advance.advance.source, d.memory.effects, k, d', ?_, hl, ?_, rfl⟩
  · rw [hs, h₁, h₂, he]
  · rw [← hd]
    exact hr

theorem Follows.assign {x : Float} (h : Follows ts t d)
    (hc : Completed ts t d.memory.effects name x) : Follows ts t (d.assign name x) := by
  obtain ⟨read, hr, hl⟩ := h.lookups
  refine ⟨⟨read, hr, ?_⟩, h.memory_assign name x, ?_⟩
  · rw [effects_assign, lookedUp_append, hl]
    exact List.append_nil _
  · rw [effects_assign, eachStore_append_singleton]
    refine ⟨h.stores, ?_⟩
    rintro n y ⟨rfl, rfl⟩
    exact hc

theorem invariant_follows (ts : List Token) (t : SymbolTable) : Invariant (Follows ts t) where
  pass := Follows.pass
  lookup := Follows.lookup
  complete h hc he hr h' := h'.assign (h.completed hc he hr)
  fail h := h

theorem invariant_extends (es : List Effect) :
    Invariant fun d : Desk (List Token) Traced => es <+: d.memory.effects where
  pass h _ _ := by rwa [memory_advance_traced]
  lookup h _ := by
    rw [memory_advance_traced, effects_declare]
    exact h.trans (List.prefix_append _ _)
  complete _ _ _ _ h := h.trans (List.prefix_append _ _)
  fail h := h

end Desk

theorem Completed.lookup_mem {ts : List Token} {t : SymbolTable} {before : List Effect} {name : String}
    {x : Float} (h : Completed ts t before name x) : .lookup name ∈ before := by
  obtain ⟨pre, post, es, k, d, -, -, hr, rfl⟩ := h
  have hp := (Desk.invariant_extends (es ++ [.lookup name])).preserves_expression k
    ⟨post, .after t (es ++ [.lookup name])⟩ (List.prefix_refl _)
  rw [hr] at hp
  exact hp.subset (by simp)

namespace Desk.Follows

variable {ts : List Token} {t : SymbolTable} {d : Desk (List Token) Traced} (h : Follows ts t d)
include h

theorem grounded : Grounded d.memory.effects :=
  fun es₁ es₂ name x he => (h.stores es₁ es₂ name x he).lookup_mem

theorem names_eq : d.memory.symbols.names =
    t.names ++ ((lookedUp d.memory.effects).filter fun name => name ∉ t.names).eraseDups := by
  rw [h.memory]
  exact t.names_replay d.memory.effects

theorem valueOf_eq (name : String) :
    d.memory.symbols.valueOf name = (lastStored? d.memory.effects name).getD (t.valueOf name) := by
  rw [h.memory]
  exact t.valueOf_replay h.grounded name

end Desk.Follows

end DeskCalculator
