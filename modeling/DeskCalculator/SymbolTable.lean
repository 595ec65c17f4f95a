set_option autoImplicit false

namespace DeskCalculator

structure Entry where
  name : String
  value : Float := 0.0
  deriving DecidableEq

def Entry.update (name : String) (x : Float) (e : Entry) : Entry :=
  if e.name = name then { e with value := x } else e

@[simp] theorem Entry.name_update (name : String) (x : Float) (e : Entry) :
    (e.update name x).name = e.name := by
  unfold update
  split <;> rfl

structure SymbolTable where
  entries : List Entry
  nodup : (entries.map Entry.name).Nodup
  deriving DecidableEq

namespace SymbolTable

def empty : SymbolTable := { entries := [], nodup := List.nodup_nil }

def find? (t : SymbolTable) (name : String) : Option Entry :=
  t.entries.find? fun e => e.name = name

def contains (t : SymbolTable) (name : String) : Bool := (t.find? name).isSome

def size (t : SymbolTable) : Nat := t.entries.length

def names (t : SymbolTable) : List String := t.entries.map Entry.name

theorem contains_iff {t : SymbolTable} {name : String} : t.contains name = true ↔ name ∈ t.names := by
  simp [contains, find?, names]

def get? (t : SymbolTable) (name : String) : Option Float := (t.find? name).map Entry.value

def valueOf (t : SymbolTable) (name : String) : Float := (t.get? name).getD 0.0

def declare (t : SymbolTable) (name : String) : SymbolTable :=
  if h : t.contains name then t
  else
    { entries := t.entries ++ [{ name }]
      nodup := by
        have h' := mt contains_iff.2 h
        simp only [List.map_append, List.map_cons, List.map_nil, List.nodup_append, t.nodup]
        refine ⟨trivial, by simp, ?_⟩
        rintro a ha b hb rfl
        simp only [List.mem_singleton] at hb
        exact h' (hb ▸ ha) }

def assign (t : SymbolTable) (name : String) (x : Float) : SymbolTable where
  entries := t.entries.map (Entry.update name x)
  nodup := by
    have h : Entry.name ∘ Entry.update name x = Entry.name := funext (Entry.name_update name x)
    rw [List.map_map, h]
    exact t.nodup

/-- The table of the given constants. A name given twice keeps its first place and its last value. -/
def ofConstants (constants : List (String × Float)) : SymbolTable :=
  constants.foldl (fun t c => (t.declare c.1).assign c.1 c.2) empty

def builtins : SymbolTable := ofConstants [("pi", 3.14159265359), ("ee", 2.71828182846)]

/-- The place of an entry, by which it may be read and written as long as the table lives. -/
structure Handle where
  place : Nat
  deriving DecidableEq

def lookup (t : SymbolTable) (name : String) : Handle × SymbolTable :=
  let t' := t.declare name
  ({ place := t'.names.idxOf name }, t')

def entryAt? (t : SymbolTable) (h : Handle) : Option Entry := t.entries[h.place]?

def writeAt (t : SymbolTable) (h : Handle) (x : Float) : SymbolTable where
  entries := t.entries.modify h.place fun e => { e with value := x }
  nodup := by
    have hm : (t.entries.modify h.place fun e => { e with value := x }).map Entry.name =
        t.entries.map Entry.name := by
      apply List.ext_getElem?
      intro i
      simp only [List.getElem?_map, List.getElem?_modify]
      cases t.entries[i]? <;> simp
      split <;> rfl
    rw [hm]
    exact t.nodup

end SymbolTable

end DeskCalculator
