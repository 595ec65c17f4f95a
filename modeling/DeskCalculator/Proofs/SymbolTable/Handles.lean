import DeskCalculator.Proofs.SymbolTable.Environment

set_option autoImplicit false

namespace DeskCalculator

namespace SymbolTable

variable {t u : SymbolTable} {name other : String}

theorem get?_eq (t : SymbolTable) (name : String) :
    t.get? name = if name ∈ t.names then some (t.valueOf name) else none := by
  split
  · exact get?_of_mem ‹_›
  · exact get?_of_not_mem ‹_›

def handleOf (t : SymbolTable) (name : String) : Handle := { place := t.names.idxOf name }

theorem lookup_eq (t : SymbolTable) (name : String) :
    t.lookup name = ((t.declare name).handleOf name, t.declare name) := rfl

theorem handleOf_declare (h : other ∈ t.names) : (t.declare name).handleOf other = t.handleOf other := by
  rw [handleOf, handleOf, names_declare]
  split
  · rfl
  · rw [List.idxOf_append_of_mem h]

theorem handleOf_assign (t : SymbolTable) (name other : String) (x : Float) :
    (t.assign name x).handleOf other = t.handleOf other := by
  rw [handleOf, handleOf, names_assign]

theorem idxOf_names_eq_iff (h : name ∈ t.names) {i : Nat} :
    t.names.idxOf name = i ↔ t.names[i]? = some name := by
  constructor
  · rintro rfl
    exact List.getElem?_idxOf h
  · intro hi
    obtain ⟨hl, rfl⟩ := List.getElem?_eq_some_iff.1 hi
    exact List.Nodup.idxOf_getElem t.nodup i hl

theorem handleOf_inj (h : name ∈ t.names) (h' : other ∈ t.names) :
    t.handleOf name = t.handleOf other ↔ name = other := by
  constructor
  · intro he
    have hi := (idxOf_names_eq_iff h).1 (congrArg Handle.place he)
    exact Option.some.inj (hi.symm.trans (List.getElem?_idxOf h'))
  · rintro rfl
    rfl

theorem entryAt?_handleOf (h : name ∈ t.names) :
    t.entryAt? (t.handleOf name) = some ⟨name, t.valueOf name⟩ := by
  rw [entryAt?, handleOf, entries_eq, List.getElem?_map, List.getElem?_idxOf h]
  rfl

theorem writeAt_handleOf (h : name ∈ t.names) (x : Float) :
    t.writeAt (t.handleOf name) x = t.assign name x := by
  refine eq_of_entries_eq (List.ext_getElem? fun i => ?_)
  rw [writeAt, assign, List.getElem?_modify, List.getElem?_map]
  cases he : t.entries[i]? with
  | none => rfl
  | some e =>
    have hn : t.names[i]? = some e.name := by rw [names, List.getElem?_map, he, Option.map_some]
    have hi : t.names.idxOf name = i ↔ e.name = name := by
      rw [idxOf_names_eq_iff h, hn, Option.some.injEq]
    simp only [handleOf, hi, Entry.update, Option.map_some, Option.map_eq_map]

end SymbolTable

def given (constants : List (String × Float)) : List Effect :=
  constants.flatMap fun c => [.lookup c.1, .store c.1 c.2]

theorem given_append_singleton (constants : List (String × Float)) (c : String × Float) :
    given (constants ++ [c]) = given constants ++ [.lookup c.1] ++ [.store c.1 c.2] := by
  simp [given]

theorem ofConstants_eq_replay (constants : List (String × Float)) :
    SymbolTable.ofConstants constants = SymbolTable.empty.replay (given constants) := by
  induction constants using List.reverseRecOn with
  | nil => rfl
  | append_singleton constants c ih =>
    rw [given_append_singleton, SymbolTable.replay_append_singleton, SymbolTable.replay_append_singleton, ← ih,
      SymbolTable.ofConstants, List.foldl_append]
    rfl

theorem lookedUp_given (constants : List (String × Float)) :
    lookedUp (given constants) = constants.map Prod.fst := by
  induction constants with
  | nil => rfl
  | cons c constants ih => exact congrArg (c.1 :: ·) ih

theorem lastStored?_given (constants : List (String × Float)) (name : String) :
    lastStored? (given constants) name = constants.reverse.lookup name := by
  induction constants using List.reverseRecOn with
  | nil => rfl
  | append_singleton constants c ih =>
    rw [given_append_singleton, List.reverse_concat, List.lookup_cons]
    by_cases hn : name = c.1
    · rw [hn, lastStored?_append_store_self]
      simp
    · rw [lastStored?_append_store_of_ne hn, lastStored?_append_lookup, ih, beq_false_of_ne hn]

theorem grounded_given (constants : List (String × Float)) : Grounded (given constants) := by
  induction constants using List.reverseRecOn with
  | nil => exact eachStore_nil _
  | append_singleton constants c ih =>
    rw [given_append_singleton]
    refine eachStore_append_singleton.2 ⟨eachStore_append_singleton.2 ⟨ih, by simp⟩, ?_⟩
    rintro _ _ ⟨⟩
    exact List.mem_append_right _ List.mem_cons_self

namespace SymbolTable

theorem names_ofConstants_replay (constants : List (String × Float)) (es : List Effect) :
    ((ofConstants constants).replay es).names = (constants.map Prod.fst ++ lookedUp es).eraseDups := by
  have hr : (ofConstants constants).replay es = empty.replay (given constants ++ es) := by
    rw [ofConstants_eq_replay, replay, replay, replay, List.foldl_append]
  rw [hr, names_replay, lookedUp_append, lookedUp_given]
  simp [names, empty]

theorem valueOf_ofConstants_replay (constants : List (String × Float)) {es : List Effect}
    (h : Grounded es) (name : String) :
    ((ofConstants constants).replay es).valueOf name =
      (lastStored? es name).getD ((constants.reverse.lookup name).getD 0.0) := by
  rw [valueOf_replay _ h, ofConstants_eq_replay, valueOf_replay _ (grounded_given constants), lastStored?_given]
  rfl

end SymbolTable

inductive Question (k : Nat)
  | read (i : Fin k)
  | value (name : String)
  | contains (name : String)
  | size
  | entries

inductive Reply
  | entry (e : Option Entry)
  | value (x : Option Float)
  | truth (b : Bool)
  | count (n : Nat)
  | entries (es : List Entry)

namespace Question

variable {k : Nat}

def reply (t : SymbolTable) (handle : Fin k → SymbolTable.Handle) : Question k → Reply
  | .read i => .entry (t.entryAt? (handle i))
  | .value name => .value (t.get? name)
  | .contains name => .truth (t.contains name)
  | .size => .count t.size
  | .entries => .entries t.entries

/-- The reply of a map, given its keys in order of creation, the value of each, and the keys that the handles stand
for. -/
def expected (created : List String) (value : String → Float) (name : Fin k → String) : Question k → Reply
  | .read i => .entry (some ⟨name i, value (name i)⟩)
  | .value n => .value (if n ∈ created then some (value n) else none)
  | .contains n => .truth (created.contains n)
  | .size => .count created.length
  | .entries => .entries (created.map fun n => ⟨n, value n⟩)

theorem reply_eq_expected {t : SymbolTable} {name : Fin k → String} (h : ∀ i, name i ∈ t.names)
    (q : Question k) :
    q.reply t (fun i => t.handleOf (name i)) = q.expected t.names t.valueOf name := by
  cases q with
  | read i => rw [reply, expected, SymbolTable.entryAt?_handleOf (h i)]
  | value n => rw [reply, expected, SymbolTable.get?_eq]
  | contains n =>
    have hc : t.contains n = t.names.contains n := by
      rw [Bool.eq_iff_iff, SymbolTable.contains_iff, List.contains_iff_mem]
    rw [reply, expected, hc]
  | size => rw [reply, expected, SymbolTable.names, List.length_map, SymbolTable.size]
  | entries => rw [reply, expected, ← SymbolTable.entries_eq]

end Question

/-- Calls to a table, in order, that have returned so many handles. -/
inductive Calls : Nat → Type
  | start : Calls 0
  | lookup {k : Nat} : Calls k → String → Calls (k + 1)
  | write {k : Nat} : Calls k → Fin k → Float → Calls k
  | ask {k : Nat} : Calls k → Question k → Calls k

namespace Calls

def name : {k : Nat} → Calls k → Fin k → String
  | _, .start => Fin.elim0
  | _, .lookup cs n => Fin.lastCases n cs.name
  | _, .write cs _ _ => cs.name
  | _, .ask cs _ => cs.name

def effects : {k : Nat} → Calls k → List Effect
  | _, .start => []
  | _, .lookup cs n => cs.effects ++ [.lookup n]
  | _, .write cs i x => cs.effects ++ [.store (cs.name i) x]
  | _, .ask cs _ => cs.effects

def run (constants : List (String × Float)) : {k : Nat} → Calls k → SymbolTable × (Fin k → SymbolTable.Handle)
  | _, .start => (.ofConstants constants, Fin.elim0)
  | _, .lookup cs n =>
    let found := (cs.run constants).1.lookup n
    (found.2, Fin.lastCases found.1 (cs.run constants).2)
  | _, .write cs i x => ((cs.run constants).1.writeAt ((cs.run constants).2 i) x, (cs.run constants).2)
  | _, .ask cs _ => cs.run constants

variable {k : Nat}

theorem name_mem_lookedUp (cs : Calls k) (i : Fin k) : cs.name i ∈ lookedUp cs.effects := by
  induction cs with
  | start => exact i.elim0
  | lookup cs n ih =>
    rw [effects, lookedUp_append, List.mem_append]
    refine Fin.lastCases ?_ (fun j => ?_) i
    · exact .inr (by simp [name, lookedUp, Effect.lookup?])
    · exact .inl (by simpa [name] using ih j)
  | write cs j x ih =>
    rw [effects, lookedUp_append]
    exact List.mem_append_left _ (ih i)
  | ask cs q ih => exact ih i

theorem grounded_effects (cs : Calls k) : Grounded cs.effects := by
  induction cs with
  | start => exact eachStore_nil _
  | lookup cs n ih => exact eachStore_append_singleton.2 ⟨ih, by simp⟩
  | write cs i x ih =>
    refine eachStore_append_singleton.2 ⟨ih, ?_⟩
    rintro _ _ ⟨⟩
    exact mem_lookedUp.1 (cs.name_mem_lookedUp i)
  | ask cs q ih => exact ih

structure Tracks (constants : List (String × Float)) (cs : Calls k) : Prop where
  table : (cs.run constants).1 = (SymbolTable.ofConstants constants).replay cs.effects
  names : ∀ i, cs.name i ∈ (cs.run constants).1.names
  handles : (cs.run constants).2 = fun i => (cs.run constants).1.handleOf (cs.name i)

namespace Tracks

variable {constants : List (String × Float)} {cs : Calls k}

theorem lookup (h : Tracks constants cs) (n : String) : Tracks constants (cs.lookup n) where
  table := by rw [run, effects, SymbolTable.replay_append_singleton, ← h.table]; rfl
  names i := by
    refine SymbolTable.mem_names_declare.2 (Fin.lastCases ?_ (fun j => ?_) i)
    · exact .inr (by simp [name])
    · exact .inl (by simpa [name] using h.names j)
  handles := by
    funext i
    refine Fin.lastCases ?_ (fun j => ?_) i
    · simp only [run, name, Fin.lastCases_last, SymbolTable.lookup_eq]
    · simp only [run, name, Fin.lastCases_castSucc, SymbolTable.lookup_eq,
        SymbolTable.handleOf_declare (h.names j)]
      exact congrFun h.handles j

theorem write (h : Tracks constants cs) (i : Fin k) (x : Float) : Tracks constants (cs.write i x) := by
  have ht : ((cs.write i x).run constants).1 = (cs.run constants).1.assign (cs.name i) x := by
    rw [run, h.handles]
    exact SymbolTable.writeAt_handleOf (h.names i) x
  refine ⟨?_, fun j => ?_, funext fun j => ?_⟩
  · rw [ht, effects, SymbolTable.replay_append_singleton, ← h.table]
    rfl
  · rw [ht, SymbolTable.names_assign]
    exact h.names j
  · rw [ht, SymbolTable.handleOf_assign]
    exact congrFun h.handles j

end Tracks

theorem tracks (constants : List (String × Float)) (cs : Calls k) : Tracks constants cs := by
  induction cs with
  | start => exact ⟨rfl, fun i => i.elim0, funext fun i => i.elim0⟩
  | lookup cs n ih => exact ih.lookup n
  | write cs i x ih => exact ih.write i x
  | ask cs q ih => exact ⟨ih.table, ih.names, ih.handles⟩

theorem names_run (constants : List (String × Float)) (cs : Calls k) :
    (cs.run constants).1.names = (constants.map Prod.fst ++ lookedUp cs.effects).eraseDups := by
  rw [(cs.tracks constants).table, SymbolTable.names_ofConstants_replay]

theorem valueOf_run (constants : List (String × Float)) (cs : Calls k) (name : String) :
    (cs.run constants).1.valueOf name =
      (lastStored? cs.effects name).getD ((constants.reverse.lookup name).getD 0.0) := by
  rw [(cs.tracks constants).table, SymbolTable.valueOf_ofConstants_replay constants cs.grounded_effects]

end Calls

/-- Whatever has been called, a table is a map with its keys in order of creation. Two handles are the same just when
they were looked up under the same name, and every question is answered by the names that were given or looked
up, each once, and for each name by the value that was stored last, or by the one given last, or by zero. -/
theorem SymbolTable.reply_calls (constants : List (String × Float)) {k : Nat} (cs : Calls k) :
    let created := (constants.map Prod.fst ++ lookedUp cs.effects).eraseDups
    let value := fun name =>
      (lastStored? cs.effects name).getD ((constants.reverse.lookup name).getD 0.0)
    let t := (cs.run constants).1
    let handle := (cs.run constants).2
    created.Nodup ∧ (∀ i j, handle i = handle j ↔ cs.name i = cs.name j) ∧
      ∀ q : Question k, q.reply t handle = q.expected created value cs.name := by
  intro created value t handle
  have hc : t.names = created := cs.names_run constants
  have hv : t.valueOf = value := funext (cs.valueOf_run constants)
  have hm : ∀ i, cs.name i ∈ t.names := (cs.tracks constants).names
  have hh : handle = fun i => t.handleOf (cs.name i) := (cs.tracks constants).handles
  refine ⟨hc ▸ t.nodup, fun i j => ?_, fun q => ?_⟩
  · rw [hh]
    exact handleOf_inj (hm i) (hm j)
  · rw [← hc, ← hv, hh]
    exact q.reply_eq_expected hm

end DeskCalculator
