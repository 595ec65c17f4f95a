import DeskCalculator.Proofs.Lexicon.Renaming
import DeskCalculator.Proofs.Session.Frame
import Mathlib.Data.List.Find
import Mathlib.Data.List.Nodup

set_option autoImplicit false

namespace DeskCalculator

structure Renaming (ns : List String) where
  image : String → String
  isName : ∀ a ∈ ns, IsName (image a)
  injective : ∀ a ∈ ns, ∀ b ∈ ns, image a = image b → a = b

variable {ns : List String} {r : Renaming ns} {a b : String}

theorem Renaming.image_eq_iff (ha : a ∈ ns) (hb : b ∈ ns) : r.image a = r.image b ↔ a = b :=
  ⟨r.injective a ha b hb, congrArg r.image⟩

def Entry.rename (f : String → String) (e : Entry) : Entry := { e with name := f e.name }

namespace SymbolTable

variable {t t' : SymbolTable}

theorem name_mem_names {e : Entry} (h : e ∈ t.entries) : e.name ∈ t.names := List.mem_map_of_mem h

def rename (t : SymbolTable) (r : Renaming ns) (h : t.names ⊆ ns) : SymbolTable where
  entries := t.entries.map (Entry.rename r.image)
  nodup := by
    have hn : (t.names.map r.image).Nodup :=
      List.Nodup.map_on (fun a ha b hb => r.injective a (h ha) b (h hb)) t.nodup
    rw [SymbolTable.names, List.map_map] at hn
    rw [List.map_map]
    exact hn

structure IsRenamed (r : Renaming ns) (t t' : SymbolTable) : Prop where
  known : t.names ⊆ ns
  entries : t'.entries = t.entries.map (Entry.rename r.image)

namespace IsRenamed

variable (h : IsRenamed r t t')
include h

theorem find?_eq (ha : a ∈ ns) : t'.find? (r.image a) = (t.find? a).map (Entry.rename r.image) := by
  rw [find?, h.entries, List.find?_map]
  refine congrArg _ (List.find?_congr fun e he => ?_)
  exact decide_eq_decide.2 (Renaming.image_eq_iff (h.known (name_mem_names he)) ha)

theorem valueOf_eq (ha : a ∈ ns) : t'.valueOf (r.image a) = t.valueOf a := by
  simp only [valueOf, get?, h.find?_eq ha, Option.map_map]
  rfl

theorem mem_names_iff (ha : a ∈ ns) : r.image a ∈ t'.names ↔ a ∈ t.names := by
  rw [← contains_iff, ← contains_iff, contains, contains, h.find?_eq ha, Option.isSome_map]

theorem declare (ha : a ∈ ns) : IsRenamed r (t.declare a) (t'.declare (r.image a)) := by
  constructor
  · rw [names_declare]
    split
    · exact h.known
    · exact List.append_subset.2 ⟨h.known, List.cons_subset.2 ⟨ha, List.nil_subset _⟩⟩
  · rw [entries_declare, entries_declare, h.entries]
    simp only [h.mem_names_iff ha]
    split
    · rfl
    · simp [Entry.rename]

theorem assign (ha : a ∈ ns) (x : Float) : IsRenamed r (t.assign a x) (t'.assign (r.image a) x) := by
  constructor
  · rw [names_assign]
    exact h.known
  · simp only [SymbolTable.assign, h.entries, List.map_map]
    refine List.map_congr_left fun e he => ?_
    have hi := Renaming.image_eq_iff (r := r) (h.known (name_mem_names he)) ha
    by_cases hn : e.name = a
    · simp [Entry.update, Entry.rename, hn]
    · simp [Entry.update, Entry.rename, hn, hi]

end IsRenamed

end SymbolTable

theorem Token.firstOf_map_rename (f : String → String) (ts : List Token) :
    firstOf (ts.map (rename f)) = (firstOf ts).rename f := by
  cases ts <;> rfl

theorem Store.log_note (m : Store) (t : Token) : (Memory.note m t).log = m.log.note t := by
  unfold Memory.note ErrorLog.note
  cases t.report? <;> rfl

structure Desk.IsRenamed (r : Renaming ns) (d e : Desk (List Token) Store) : Prop where
  source : e.source = d.source.map (Token.rename r.image)
  mentioned : ∀ id, .name id ∈ d.source → id ∈ ns
  symbols : SymbolTable.IsRenamed r d.memory.symbols e.memory.symbols
  log : e.memory.log = d.memory.log

namespace Desk.IsRenamed

variable {d e : Desk (List Token) Store}

theorem current_eq (h : IsRenamed r d e) : e.current = d.current.rename r.image := by
  change Token.firstOf e.source = (Token.firstOf d.source).rename r.image
  rw [h.source, Token.firstOf_map_rename]

theorem advance (h : IsRenamed r d e) : IsRenamed r d.advance e.advance := by
  have hs : e.advance.source = d.advance.source.map (Token.rename r.image) := by
    change e.source.tail = d.source.tail.map _
    rw [h.source, List.map_tail]
  refine ⟨hs, fun id hi => h.mentioned id (List.mem_of_mem_tail hi), ?_, ?_⟩
  · rw [symbols_advance, symbols_advance]
    exact h.symbols
  · have hc : (Token.firstOf e.advance.source).report? = (Token.firstOf d.advance.source).report? := by
      rw [hs, Token.firstOf_map_rename, Token.report?_rename]
    change (Memory.note e.memory (Token.firstOf e.advance.source)).log =
      (Memory.note d.memory (Token.firstOf d.advance.source)).log
    rw [Store.log_note, Store.log_note, h.log]
    simp only [ErrorLog.note, hc]

theorem simulation (r : Renaming ns) :
    Simulation (fun a b => a ∈ ns ∧ b = r.image a) (IsRenamed r) where
  current {d e} h := by
    rw [h.current_eq]
    cases hd : d.current with
    | name id => exact .name ⟨h.mentioned id (hd ▸ current_mem_source (by rw [hd]; rfl)), rfl⟩
    | _ => exact .same (by simp [Token.kind])
  advance h _ := h.advance
  declare h hv := by
    obtain ⟨ha, rfl⟩ := hv
    exact ⟨h.source, h.mentioned, h.symbols.declare ha, h.log⟩
  valueOf h hv := by
    obtain ⟨ha, rfl⟩ := hv
    exact (h.symbols.valueOf_eq ha).symm
  assign h hv := by
    obtain ⟨ha, rfl⟩ := hv
    exact ⟨h.source, h.mentioned, h.symbols.assign ha _, h.log⟩
  fail h := ⟨h.source, h.mentioned, h.symbols, congrArg (ErrorLog.add · _) h.log⟩

end Desk.IsRenamed

namespace Session

def rename (s : Session) (r : Renaming ns) (h : s.store.symbols.names ⊆ ns) : Session :=
  { s with store := { s.store with symbols := s.store.symbols.rename r h } }

/-- Names mean nothing. A text in which each name is replaced has the same outcomes in the session with the names of
its variables replaced alike, makes the same reports, and leaves the variables that it leaves otherwise, in their
order and with their values, by the other names. -/
theorem evaluate_rename (s : Session) (text : List Char)
    (r : Renaming (Token.names (tokenize text) ++ s.store.symbols.names)) :
    let run := s.evaluate text
    let run' := (s.rename r (List.subset_append_right _ _)).evaluate (renameNames r.image text)
    run'.1 = run.1 ∧ run'.2.errorCount = run.2.errorCount ∧
      run'.2.store.log.text = run.2.store.log.text ∧
      run'.2.store.symbols.entries = run.2.store.symbols.entries.map (Entry.rename r.image) := by
  intro run run'
  have hm : ∀ id, .name id ∈ tokenize text → id ∈ Token.names (tokenize text) ++ s.store.symbols.names :=
    fun id hi => List.mem_append_left _ (Token.mem_names.2 hi)
  have hr : Desk.IsRenamed r ⟨.finish :: tokenize text, s.store⟩
      ⟨.finish :: tokenize (renameNames r.image text), (s.rename r (List.subset_append_right _ _)).store⟩ := by
    rw [tokenize_renameNames fun id hi => r.isName id (hm id hi)]
    exact ⟨rfl, fun id hi => hm id (by simpa using hi), ⟨List.subset_append_right _ _, rfl⟩, rfl⟩
  have hl : s.levels = (s.rename r (List.subset_append_right _ _)).levels := rfl
  obtain ⟨ho, ts, ts', hR⟩ := agree_evaluate (Desk.IsRenamed.simulation r).correspondence
    (fun h => h.advance) (fun h => by rw [h.current_eq, Token.rename_eq_finish_iff]) hl hr
  exact ⟨ho.symm, congrArg ErrorLog.count hR.log, congrArg ErrorLog.text hR.log, hR.symbols.entries⟩

def exchanged :
    Renaming (Token.names (tokenize "2pi = x; ee + x ?".toList) ++ ({} : Session).store.symbols.names) where
  image a := if a = "pi" then "ee" else if a = "ee" then "pi" else "b2"
  isName a _ := by
    have hp : IsName "pi" := ⟨'p', ['i'], rfl, by decide +kernel, List.forall_mem_singleton.2 (by decide +kernel)⟩
    have he : IsName "ee" := ⟨'e', ['e'], rfl, by decide +kernel, List.forall_mem_singleton.2 (by decide +kernel)⟩
    have hb : IsName "b2" := ⟨'b', ['2'], rfl, by decide +kernel, List.forall_mem_singleton.2 (by decide +kernel)⟩
    split
    · exact he
    · split
      · exact hp
      · exact hb
  injective := by
    have hn : Token.names (tokenize "2pi = x; ee + x ?".toList) ++ ({} : Session).store.symbols.names =
        ["pi", "x", "ee", "x", "pi", "ee"] := by
      set_option maxRecDepth 10000 in decide +kernel
    rw [hn]
    decide

theorem evaluate_exchanged :
    let run := Session.evaluate {} "2pi = x; ee + x ?".toList
    let run' := (({} : Session).rename exchanged (List.subset_append_right _ _)).evaluate
      "2ee = b2; pi + b2 ?".toList
    run'.1 = run.1 ∧ run'.2.errorCount = run.2.errorCount ∧
      run'.2.store.log.text = run.2.store.log.text ∧
      run.2.store.symbols.entries = [⟨"pi", 3.14159265359⟩, ⟨"ee", 2.71828182846⟩, ⟨"x", 0.0⟩] ∧
      run'.2.store.symbols.entries = [⟨"ee", 3.14159265359⟩, ⟨"pi", 2.71828182846⟩, ⟨"b2", 0.0⟩] := by
  intro run run'
  have hn : renameNames exchanged.image "2pi = x; ee + x ?".toList = "2ee = b2; pi + b2 ?".toList := by
    set_option maxRecDepth 10000 in decide +kernel
  have he : run.2.store.symbols.entries =
      [⟨"pi", 3.14159265359⟩, ⟨"ee", 2.71828182846⟩, ⟨"x", 0.0⟩] := by
    set_option maxRecDepth 10000 in decide +kernel
  have h := evaluate_rename {} "2pi = x; ee + x ?".toList exchanged
  rw [hn] at h
  obtain ⟨ho, hc, ht, hs⟩ := h
  refine ⟨ho, hc, ht, he, hs.trans ?_⟩
  rw [he]
  decide +kernel

end Session

end DeskCalculator
