import DeskCalculator.SymbolTable
import Mathlib.Data.List.Induction

set_option autoImplicit false

namespace DeskCalculator

namespace SymbolTable

variable (t : SymbolTable) (name other : String) (x : Float)

theorem entries_declare :
    (t.declare name).entries = if name ∈ t.names then t.entries else t.entries ++ [{ name := name }] := by
  unfold declare
  by_cases h : name ∈ t.names
  · rw [dif_pos (contains_iff.2 h), if_pos h]
  · rw [dif_neg (mt contains_iff.1 h), if_neg h]

theorem names_declare :
    (t.declare name).names = if name ∈ t.names then t.names else t.names ++ [name] := by
  rw [names, entries_declare]
  split
  · rfl
  · exact List.map_append

@[simp] theorem names_assign : (t.assign name x).names = t.names := by
  simp only [names, assign, List.map_map]
  exact List.map_congr_left fun e _ => Entry.name_update name x e

theorem mem_names_declare {t : SymbolTable} {name other : String} :
    other ∈ (t.declare name).names ↔ other ∈ t.names ∨ other = name := by
  rw [names_declare]
  split
  · rename_i h
    exact (or_iff_left_of_imp (by rintro rfl; exact h)).symm
  · simp

theorem name_of_find? {t : SymbolTable} {name : String} {e : Entry} (h : t.find? name = some e) :
    e.name = name := by
  simpa [find?] using List.find?_some h

theorem exists_find?_of_mem {t : SymbolTable} {name : String} (h : name ∈ t.names) :
    ∃ e, t.find? name = some e :=
  Option.isSome_iff_exists.1 (contains_iff.2 h)

theorem get?_of_mem {t : SymbolTable} {name : String} (h : name ∈ t.names) :
    t.get? name = some (t.valueOf name) := by
  obtain ⟨e, he⟩ := exists_find?_of_mem h
  simp [valueOf, get?, he]

theorem get?_of_not_mem {t : SymbolTable} {name : String} (h : name ∉ t.names) :
    t.get? name = none := by
  have hc := mt contains_iff.1 h
  rw [contains, Bool.not_eq_true, Option.isSome_eq_false_iff, Option.isNone_iff_eq_none] at hc
  rw [get?, hc, Option.map_none]

@[simp] theorem valueOf_declare : (t.declare name).valueOf other = t.valueOf other := by
  unfold declare
  split
  · rfl
  · rename_i h
    by_cases ho : other ∈ t.names
    · obtain ⟨e, he⟩ := exists_find?_of_mem ho
      simp only [find?] at he
      simp [valueOf, get?, find?, List.find?_append, he]
    · have hn := get?_of_not_mem ho
      simp only [get?, find?, Option.map_eq_none_iff] at hn
      simp only [valueOf, get?, find?, List.find?_append, hn, Option.none_or, Option.map_none,
        Option.getD_none]
      by_cases he : name = other
      · simp [he]
      · simp [he]

theorem find?_assign : (t.assign name x).find? other = (t.find? other).map (Entry.update name x) := by
  simp only [find?, assign, List.find?_map, Function.comp_def, Entry.name_update]

theorem valueOf_assign_self {t : SymbolTable} {name : String} (h : name ∈ t.names) :
    (t.assign name x).valueOf name = x := by
  obtain ⟨e, he⟩ := exists_find?_of_mem h
  simp [valueOf, get?, find?_assign, he, Entry.update, name_of_find? he]

theorem valueOf_assign_of_ne {name other : String} (h : other ≠ name) :
    (t.assign name x).valueOf other = t.valueOf other := by
  simp only [valueOf, get?, find?_assign, Option.map_map]
  cases he : t.find? other with
  | none => rfl
  | some e =>
    simp [Entry.update, name_of_find? he, h]

end SymbolTable

inductive Effect
  | lookup (name : String)
  | store (name : String) (x : Float)
  deriving DecidableEq

namespace Effect

def apply (t : SymbolTable) : Effect → SymbolTable
  | .lookup name => t.declare name
  | .store name x => t.assign name x

def lookup? : Effect → Option String
  | .lookup name => some name
  | .store _ _ => none

def valueFor? (name : String) : Effect → Option Float
  | .lookup _ => none
  | .store other x => if other = name then some x else none

end Effect

def SymbolTable.replay (t : SymbolTable) (es : List Effect) : SymbolTable := es.foldl Effect.apply t

def lookedUp (es : List Effect) : List String := es.filterMap Effect.lookup?

def lastStored? (es : List Effect) (name : String) : Option Float :=
  (es.filterMap (Effect.valueFor? name)).getLast?

/-- Each value stored has the property, with what had been done before it was stored. -/
def EachStore (P : List Effect → String → Float → Prop) (es : List Effect) : Prop :=
  ∀ es₁ es₂ name x, es = es₁ ++ .store name x :: es₂ → P es₁ name x

theorem eachStore_nil (P : List Effect → String → Float → Prop) : EachStore P [] := by
  intro es₁ es₂ name x h
  simp at h

theorem eachStore_append_singleton {P : List Effect → String → Float → Prop} {es : List Effect}
    {e : Effect} :
    EachStore P (es ++ [e]) ↔ EachStore P es ∧ ∀ name x, e = .store name x → P es name x := by
  constructor
  · refine fun h => ⟨?_, ?_⟩
    · rintro es₁ es₂ name x rfl
      exact h es₁ (es₂ ++ [e]) name x (by simp)
    · rintro name x rfl
      exact h es [] name x rfl
  · rintro ⟨h, he⟩ es₁ es₂ name x heq
    obtain rfl | ⟨es₂', e', rfl⟩ := List.eq_nil_or_concat es₂
    · obtain ⟨rfl, hs⟩ := List.append_inj' heq rfl
      exact he name x (List.singleton_inj.1 hs)
    · rw [List.concat_eq_append, ← List.cons_append, ← List.append_assoc] at heq
      exact h es₁ es₂' name x (List.append_inj' heq rfl).1

/-- A value is stored only for a name that was looked up before. -/
def Grounded : List Effect → Prop := EachStore fun before name _ => .lookup name ∈ before

theorem lookedUp_append (es es' : List Effect) : lookedUp (es ++ es') = lookedUp es ++ lookedUp es' :=
  List.filterMap_append

theorem mem_lookedUp {es : List Effect} {name : String} : name ∈ lookedUp es ↔ .lookup name ∈ es := by
  unfold lookedUp
  rw [List.mem_filterMap]
  constructor
  · rintro ⟨e, he, h⟩
    cases e with
    | lookup n =>
      obtain rfl : n = name := by simpa [Effect.lookup?] using h
      exact he
    | store n x => simp [Effect.lookup?] at h
  · exact fun h => ⟨_, h, rfl⟩

theorem Grounded.mem_lookedUp {es : List Effect} (h : Grounded es) {name : String} {x : Float}
    (hs : .store name x ∈ es) : name ∈ lookedUp es := by
  obtain ⟨es₁, es₂, rfl⟩ := List.append_of_mem hs
  exact DeskCalculator.mem_lookedUp.2 (List.mem_append_left _ (h es₁ es₂ name x rfl))

theorem Grounded.eq_nil {es : List Effect} (h : Grounded es) (hl : lookedUp es = []) : es = [] := by
  cases es with
  | nil => rfl
  | cons e es =>
    cases e with
    | lookup name => simp [lookedUp, Effect.lookup?] at hl
    | store name x => simpa using h [] es name x rfl

theorem lastStored?_append_store_self (es : List Effect) (name : String) (x : Float) :
    lastStored? (es ++ [.store name x]) name = some x := by
  simp [lastStored?, Effect.valueFor?]

theorem lastStored?_append_store_of_ne {es : List Effect} {name other : String} (h : other ≠ name)
    (x : Float) : lastStored? (es ++ [.store name x]) other = lastStored? es other := by
  simp [lastStored?, Effect.valueFor?, h.symm]

theorem lastStored?_append_lookup (es : List Effect) (name other : String) :
    lastStored? (es ++ [.lookup name]) other = lastStored? es other := by
  simp [lastStored?, Effect.valueFor?]

theorem exists_eq_append_of_lastStored? {es : List Effect} {name : String} {x : Float}
    (h : lastStored? es name = some x) :
    ∃ es₁ es₂, es = es₁ ++ .store name x :: es₂ ∧ ∀ y, .store name y ∉ es₂ := by
  induction es using List.reverseRecOn with
  | nil => simp [lastStored?] at h
  | append_singleton es e ih =>
    cases e with
    | lookup n =>
      rw [lastStored?_append_lookup] at h
      obtain ⟨es₁, es₂, rfl, hn⟩ := ih h
      exact ⟨es₁, es₂ ++ [.lookup n], by simp, by simpa using hn⟩
    | store n y =>
      by_cases hn : name = n
      · subst hn
        rw [lastStored?_append_store_self, Option.some.injEq] at h
        subst h
        exact ⟨es, [], rfl, by simp⟩
      · rw [lastStored?_append_store_of_ne hn] at h
        obtain ⟨es₁, es₂, rfl, hs⟩ := ih h
        exact ⟨es₁, es₂ ++ [.store n y], by simp, by simpa [hn] using hs⟩

theorem filterMap_valueFor?_eq_nil_iff {es : List Effect} {name : String} :
    es.filterMap (Effect.valueFor? name) = [] ↔ ∀ x, .store name x ∉ es := by
  rw [List.filterMap_eq_nil_iff]
  constructor
  · intro h x hx
    simpa [Effect.valueFor?] using h _ hx
  · intro h e he
    cases e with
    | lookup n => rfl
    | store n x =>
      have hn : n ≠ name := fun hn => h x (hn ▸ he)
      simp [Effect.valueFor?, hn]

theorem lastStored?_eq_none_iff {es : List Effect} {name : String} :
    lastStored? es name = none ↔ ∀ x, .store name x ∉ es := by
  rw [lastStored?, List.getLast?_eq_none_iff, filterMap_valueFor?_eq_nil_iff]

theorem lastStored?_append_store {later : List Effect} {name : String}
    (h : ∀ y, .store name y ∉ later) (before : List Effect) (x : Float) :
    lastStored? (before ++ .store name x :: later) name = some x := by
  have hn := filterMap_valueFor?_eq_nil_iff.2 h
  simp [lastStored?, Effect.valueFor?, hn]

namespace SymbolTable

theorem replay_append_singleton (t : SymbolTable) (es : List Effect) (e : Effect) :
    t.replay (es ++ [e]) = e.apply (t.replay es) :=
  List.foldl_append

/-- No entry is removed or moved; the new names are those looked up that were absent, each in the place of its
first lookup. -/
theorem names_replay (t : SymbolTable) (es : List Effect) :
    (t.replay es).names =
      t.names ++ ((lookedUp es).filter fun name => name ∉ t.names).eraseDups := by
  induction es generalizing t with
  | nil => simp [replay, lookedUp]
  | cons e es ih =>
    rw [show t.replay (e :: es) = (e.apply t).replay es from rfl, ih]
    cases e with
    | store name x => rw [Effect.apply, names_assign]; rfl
    | lookup name =>
      rw [Effect.apply, names_declare, show lookedUp (.lookup name :: es) = name :: lookedUp es from rfl]
      by_cases h : name ∈ t.names
      · simp [h]
      · simp only [h, if_false, List.filter_cons, not_false_eq_true, decide_true, if_true,
          List.eraseDups_cons, List.append_assoc, List.singleton_append, List.filter_filter]
        congr 3
        refine List.filter_congr fun other _ => ?_
        rw [Bool.eq_iff_iff]
        simp [and_comm]

theorem mem_names_replay_of_lookup {t : SymbolTable} {es : List Effect} {name : String}
    (h : .lookup name ∈ es) : name ∈ (t.replay es).names := by
  by_cases hn : name ∈ t.names
  · simp [names_replay, hn]
  · simp [names_replay, hn, mem_lookedUp, h]

/-- A variable has the value that was stored last for it, or the one that it had. -/
theorem valueOf_replay (t : SymbolTable) {es : List Effect} (h : Grounded es) (name : String) :
    (t.replay es).valueOf name = (lastStored? es name).getD (t.valueOf name) := by
  induction es using List.reverseRecOn with
  | nil => rfl
  | append_singleton es e ih =>
    obtain ⟨hg, hs⟩ := eachStore_append_singleton.1 h
    rw [replay_append_singleton]
    cases e with
    | lookup n =>
      rw [lastStored?_append_lookup, Effect.apply, valueOf_declare]
      exact ih hg
    | store n x =>
      by_cases hn : name = n
      · subst hn
        rw [lastStored?_append_store_self, Effect.apply,
          valueOf_assign_self x (mem_names_replay_of_lookup (hs name x rfl))]
        rfl
      · rw [lastStored?_append_store_of_ne hn, Effect.apply, valueOf_assign_of_ne _ _ hn]
        exact ih hg

end SymbolTable

end DeskCalculator
