import DeskCalculator.Proofs.Evaluation.Replay
import Mathlib.Data.List.Nodup
import Mathlib.Logic.Function.Basic

set_option autoImplicit false

namespace DeskCalculator

namespace SymbolTable

variable {t u : SymbolTable}

theorem eq_of_entries_eq (h : t.entries = u.entries) : t = u := by
  cases t
  cases u
  cases h
  rfl

theorem find?_of_mem {e : Entry} (h : e ∈ t.entries) : t.find? e.name = some e := by
  obtain ⟨e', he⟩ := exists_find?_of_mem (List.mem_map_of_mem h)
  rw [he, List.inj_on_of_nodup_map t.nodup (List.mem_of_find?_eq_some he) h (name_of_find? he)]

theorem entries_eq (t : SymbolTable) : t.entries = t.names.map fun name => ⟨name, t.valueOf name⟩ := by
  have h : ∀ e ∈ t.entries, ((fun name => ⟨name, t.valueOf name⟩) ∘ Entry.name) e = id e := by
    intro e he
    rw [Function.comp_apply, valueOf, get?, find?_of_mem he]
    rfl
  rw [names, List.map_map, List.map_congr_left h, List.map_id]

end SymbolTable

/-- Variables as a function from names to values, and the names that have been created, in order. Nothing of a
table is used: this is what the tables are compared with. -/
structure Environment where
  names : List String
  nodup : names.Nodup
  value : String → Float

namespace Environment

def create (ρ : Environment) (name : String) : Environment :=
  if h : name ∈ ρ.names then ρ
  else
    { names := ρ.names.concat name
      nodup := ρ.nodup.concat h
      value := Function.update ρ.value name 0.0 }

def store (ρ : Environment) (name : String) (x : Float) : Environment :=
  { ρ with value := Function.update ρ.value name x }

def entries (ρ : Environment) : List Entry := ρ.names.map fun name => ⟨name, ρ.value name⟩

variable (ρ : Environment) (name : String) (x : Float)

@[simp] theorem map_name_entries : ρ.entries.map Entry.name = ρ.names := by
  simp [entries, Function.comp_def]

def table : SymbolTable where
  entries := ρ.entries
  nodup := ρ.map_name_entries.symm ▸ ρ.nodup

@[simp] theorem names_table : ρ.table.names = ρ.names := ρ.map_name_entries

theorem valueOf_table {ρ : Environment} {name : String} (h : name ∈ ρ.names) :
    ρ.table.valueOf name = ρ.value name := by
  have he : (⟨name, ρ.value name⟩ : Entry) ∈ ρ.table.entries := List.mem_map.2 ⟨name, h, rfl⟩
  rw [SymbolTable.valueOf, SymbolTable.get?, SymbolTable.find?_of_mem he]
  rfl

@[simp] theorem value_store_self : (ρ.store name x).value name = x := Function.update_self _ _ _

theorem mem_names_create : name ∈ (ρ.create name).names := by
  unfold create
  split <;> simp_all

theorem table_create : (ρ.create name).table = ρ.table.declare name := by
  apply SymbolTable.eq_of_entries_eq
  rw [SymbolTable.entries_declare, names_table]
  by_cases h : name ∈ ρ.names
  · rw [create, dif_pos h, if_pos h]
  · have hv : ∀ n ∈ ρ.names, Function.update ρ.value name 0.0 n = ρ.value n :=
      fun n hn => Function.update_of_ne (ne_of_mem_of_not_mem hn h) _ _
    rw [create, dif_neg h, if_neg h]
    simp only [table, entries, List.concat_eq_append, List.map_append, List.map_cons, List.map_nil,
      Function.update_self]
    rw [List.map_congr_left fun n hn => congrArg (Entry.mk n) (hv n hn)]

theorem table_store : (ρ.store name x).table = ρ.table.assign name x := by
  apply SymbolTable.eq_of_entries_eq
  simp only [table, entries, store, SymbolTable.assign, List.map_map]
  refine List.map_congr_left fun n _ => ?_
  by_cases h : n = name
  · subst h
    simp [Entry.update]
  · simp [Entry.update, h]

end Environment

def SymbolTable.environment (t : SymbolTable) : Environment where
  names := t.entries.map Entry.name
  nodup := t.nodup
  value name := ((t.entries.find? fun e => e.name = name).map Entry.value).getD 0.0

@[simp] theorem SymbolTable.table_environment (t : SymbolTable) : t.environment.table = t :=
  eq_of_entries_eq t.entries_eq.symm

end DeskCalculator
