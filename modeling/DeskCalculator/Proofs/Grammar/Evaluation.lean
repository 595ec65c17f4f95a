import DeskCalculator.Proofs.Evaluation.Calls
import DeskCalculator.Proofs.Lexicon.Writing
import DeskCalculator.Proofs.Session.Tokens

set_option autoImplicit false

namespace DeskCalculator

open TokenSource

abbrev TokenDesk := Desk (List Token) Store

/-- A run does what a walk has done. With a value it goes on at the tokens `k`. After a stop it has
failed and reported why. -/
def RunsAs (k : List Token) (log : ErrorLog) (go : Float → TokenDesk → Outcome × TokenDesk)
    (w : Except Stop Float × Environment) (r : Outcome × TokenDesk) : Prop :=
  match w with
  | (.ok x, ρ) => r = go x ⟨k, ⟨ρ.table, log⟩⟩
  | (.error s, ρ) => r.1 = .error s.report ∧ r.2.memory = ⟨ρ.table, log.add s.report⟩

def settled (x : Float) (d : TokenDesk) : Outcome × TokenDesk := (.ok x, d)

namespace RunsAs

variable {k k' : List Token} {log : ErrorLog} {ρ : Environment} {r : Outcome × TokenDesk}
variable {go go' : Float → TokenDesk → Outcome × TokenDesk}

theorem andThen {w : Walk} {f : Float → Walk} (h : RunsAs k log go (w ρ) r)
    (hf : ∀ x ρ', RunsAs k' log go' (f x ρ') (go x ⟨k, ⟨ρ'.table, log⟩⟩)) :
    RunsAs k' log go' (w.andThen f ρ) r := by
  unfold Walk.andThen
  cases hw : w ρ with
  | mk o ρ' =>
    rw [hw] at h
    cases o with
    | error s => exact h
    | ok x =>
      obtain rfl : r = go x ⟨k, ⟨ρ'.table, log⟩⟩ := h
      exact hf x ρ'

theorem mono {w : Except Stop Float × Environment} (h : RunsAs k log go w r)
    (hg : ∀ x (ρ' : Environment), go x ⟨k, ⟨ρ'.table, log⟩⟩ = go' x ⟨k, ⟨ρ'.table, log⟩⟩) : RunsAs k log go' w r := by
  obtain ⟨o | x, ρ'⟩ := w
  · exact h
  · exact Eq.trans h (hg x ρ')

theorem settle {l : Level} {p : Part (List Token) Store} {w : Except Stop Float × Environment}
    (h : RunsAs k log (Part.operations l p) w r) (hk : l.operator? (Token.firstOf k) = none) :
    RunsAs k log settled w r :=
  h.mono fun _ _ => Part.operations_of_none hk

theorem onward {w : Walk} {f : Float → Walk} (h : RunsAs k log settled (w ρ) r)
    (hf : ∀ x ρ', RunsAs k' log go (f x ρ') (go' x ⟨k, ⟨ρ'.table, log⟩⟩)) :
    RunsAs k' log go (w.andThen f ρ) (onward go' r) := by
  unfold Walk.andThen
  obtain ⟨o, d⟩ := r
  cases hw : w ρ with
  | mk v ρ' =>
    rw [hw] at h
    cases v with
    | error s =>
      obtain ⟨he, hm⟩ := h
      cases he
      exact ⟨rfl, hm⟩
    | ok x =>
      cases h
      exact hf x ρ'

theorem chain {l : Level} {p : Part (List Token) Store} {d : TokenDesk} {w : Walk}
    (h : RunsAs k log settled (w ρ) (p.run d)) :
    RunsAs k log (Part.operations l p) (w ρ) ((Part.chain l p).run d) := by
  rw [← Walk.andThen_value w, Part.run_chain_eq_onward]
  exact h.onward fun _ _ => rfl

theorem operation {l : Level} {p : Part (List Token) Store} {d : TokenDesk} {op : Operator}
    {w : Walk} {f : Float → Walk} {x : Float} (hop : l.operator? d.current = some op)
    (h : RunsAs k log settled (w ρ) (p.run d.advance))
    (hf : ∀ y ρ', RunsAs k log (Part.operations l p) (f y ρ')
      (Part.applied l p ⟨k, ⟨ρ'.table, log⟩⟩ (op.apply x y))) :
    RunsAs k log (Part.operations l p) (w.andThen f ρ) (Part.operations l p x d) := by
  rw [Part.operations_eq_onward hop]
  exact h.onward hf

theorem multiplication {p : Part (List Token) Store} {o : Multiplication} {op : Operator}
    (hop : Level.operator? .product o.token = some op) (x y : Float) :
    RunsAs k log (Part.operations .product p) (o.walk x y ρ)
      (Part.applied .product p ⟨k, ⟨ρ.table, log⟩⟩ (op.apply x y)) := by
  cases o with
  | times =>
    cases hop
    rfl
  | dividedBy =>
    cases hop
    by_cases hy : (y == 0) = true
    · simp only [Multiplication.walk, Operator.apply, hy, if_true]
      exact ⟨rfl, rfl⟩
    · simp only [Multiplication.walk, Operator.apply, hy]
      rfl

theorem addition {p : Part (List Token) Store} {o : Addition} {op : Operator}
    (hop : Level.operator? .sum o.token = some op) (x y : Float) :
    RunsAs k log (Part.operations .sum p) (o.walk x y ρ)
      (Part.applied .sum p ⟨k, ⟨ρ.table, log⟩⟩ (op.apply x y)) := by
  cases o <;> cases hop <;> rfl

end RunsAs

theorem Multiplication.exists_operator (o : Multiplication) :
    ∃ op, Level.operator? .product o.token = some op := by
  cases o <;> exact ⟨_, rfl⟩

theorem Addition.exists_operator (o : Addition) :
    ∃ op, Level.operator? .sum o.token = some op := by
  cases o <;> exact ⟨_, rfl⟩

structure Rank.Precedes (r : Rank) (b : Bool) (k : List Token) : Prop where
  quiet : (Token.firstOf k).report? = none
  no_equal : Token.firstOf k ≠ .equal
  no_operator : b = true → ∀ l : Level, l.operator? (Token.firstOf k) = none
  no_factor : r = .expression → Level.operator? .product (Token.firstOf k) = none

/-- What a part goes on with after a phrase that may be its beginning only. -/
def Rank.rest (levels : Nat) : Rank → Float → TokenDesk → Outcome × TokenDesk
  | .primary => settled
  | .term => Part.operations .product (Part.primary levels)
  | .expression => Part.operations .sum (Part.term levels)

theorem Desk.advance_cons {k : List Token} (h : (Token.firstOf k).report? = none) (t : Token) (m : Store) :
    Desk.advance ⟨t :: k, m⟩ = ⟨k, m⟩ := by
  simp [Memory.note_of_report?_none h]

namespace Tree

theorem advance_tokens_append {r : Rank} {b : Bool} (t : Tree r b) (u : Token) (k : List Token)
    (m : Store) : Desk.advance ⟨u :: (t.tokens ++ k), m⟩ = ⟨t.tokens ++ k, m⟩ := by
  have hb := t.isBoundary_of_mem_tokens
  cases ht : t.tokens with
  | nil => exact absurd ht t.tokens_ne_nil
  | cons v vs =>
    rw [ht] at hb
    have hq := Token.report?_of_not_boundary (hb v List.mem_cons_self)
    exact Desk.advance_cons (k := v :: (vs ++ k)) hq u m

theorem runsAs_guarded {limit level : Nat} {w : Walk} {ρ : Environment} {k ts : List Token}
    {log : ErrorLog}
    (h : level ≤ limit → RunsAs k log settled (w ρ)
      (Part.primaryRun (Part.primary (limit + 1 - (level + 1))) ⟨ts, ⟨ρ.table, log⟩⟩)) :
    RunsAs k log settled (guarded limit level w ρ)
      ((Part.primary (limit + 1 - level)).run ⟨ts, ⟨ρ.table, log⟩⟩) := by
  unfold guarded
  split
  · rename_i hl
    have hz : limit + 1 - level = 0 := by omega
    rw [hz]
    exact ⟨rfl, rfl⟩
  · rename_i hl
    have hs : limit + 1 - level = (limit + 1 - (level + 1)) + 1 := by omega
    rw [hs]
    exact h (by omega)

/-- Reading a phrase does what the walk over it does, and goes on with what follows. -/
theorem runsAs_walk {r : Rank} {b : Bool} (t : Tree r b) (limit level : Nat) (ρ : Environment)
    (k : List Token) (log : ErrorLog) (hk : r.Precedes b k) :
    RunsAs k log (r.rest (limit + 1 - level)) (t.walk limit level ρ)
      ((Part.ofRank (limit + 1 - level) r).run ⟨t.tokens ++ k, ⟨ρ.table, log⟩⟩) := by
  -- A term or an expression may be the beginning of a longer one, so the loop that reads it is not over
  -- when its tokens are: `rest` is what the loop does next, and `settle` ends it where nothing follows.
  induction t generalizing level ρ k with
  | number digits x =>
    apply runsAs_guarded
    intro _
    change RunsAs k log settled _ (.ok x, Desk.advance ⟨.number digits x :: k, ⟨ρ.table, log⟩⟩)
    rw [Desk.advance_cons hk.quiet]
    rfl
  | name id =>
    apply runsAs_guarded
    intro _
    have hd : ((Desk.mk (.name id :: k) (Store.mk ρ.table log)).declare id).advance =
        ⟨k, ⟨(ρ.create id).table, log⟩⟩ := by
      rw [ρ.table_create]
      exact Desk.advance_cons hk.quiet (.name id) _
    have hv : Desk.valueOf (Desk.mk k (Store.mk (ρ.create id).table log)) id = (ρ.create id).value id :=
      Environment.valueOf_table (ρ.mem_names_create id)
    change RunsAs k log settled _ (Part.variableOf _ id ⟨.name id :: k, ⟨ρ.table, log⟩⟩)
    unfold Part.variableOf
    simp only [hd, Desk.current_mk, if_neg hk.no_equal, hv]
    rfl
  | assign id e ih =>
    apply runsAs_guarded
    intro _
    have h := (ih (level + 1) (ρ.create id) k ⟨hk.quiet, hk.no_equal, fun _ => hk.no_operator rfl,
      fun _ => hk.no_operator rfl .product⟩).settle (hk.no_operator rfl .sum)
    rw [← e.advance_tokens_append .equal, ρ.table_create] at h
    change RunsAs k log settled _
      (Part.variableOf _ id ⟨.name id :: .equal :: (e.tokens ++ k), ⟨ρ.table, log⟩⟩)
    rw [Part.variableOf_eq_onward _ rfl]
    refine h.onward fun x ρ' => ?_
    rw [ρ'.value_store_self, RunsAs, ρ'.table_store]
    rfl
  | minus p ih =>
    apply runsAs_guarded
    intro _
    have h := ih (level + 1) ρ k hk
    rw [← p.advance_tokens_append .minus] at h
    change RunsAs k log settled _ (Part.opposite _ ⟨.minus :: (p.tokens ++ k), ⟨ρ.table, log⟩⟩)
    rw [Part.opposite_eq_onward]
    exact h.onward fun x ρ' => rfl
  | bracket e ih =>
    apply runsAs_guarded
    intro _
    have h := (ih (level + 1) ρ (.bracketClose :: k) ⟨rfl, by simp, fun _ l => by cases l <;> rfl,
      fun _ => rfl⟩).settle rfl
    rw [← e.advance_tokens_append .bracketOpen] at h
    rw [← Walk.andThen_value (e.walk limit (level + 1))]
    have hb : (Tree.bracket e).tokens ++ k = .bracketOpen :: (e.tokens ++ .bracketClose :: k) := by
      simp [tokens]
    rw [hb]
    change RunsAs k log settled _
      (Part.bracketed _ ⟨.bracketOpen :: (e.tokens ++ .bracketClose :: k), ⟨ρ.table, log⟩⟩)
    rw [Part.bracketed_eq_onward]
    refine h.onward fun x ρ' => ?_
    exact congrArg (Prod.mk (Except.ok x)) (Desk.advance_cons hk.quiet .bracketClose ⟨ρ'.table, log⟩)
  | factor p ih => exact (ih level ρ k ⟨hk.quiet, hk.no_equal, hk.no_operator, by simp⟩).chain
  | product t o p iht ihp =>
    obtain ⟨op, hop⟩ := o.exists_operator
    have ht := iht level ρ (o.token :: (p.tokens ++ k))
      ⟨by cases o <;> rfl, by cases o <;> simp [Multiplication.token], by simp, by simp⟩
    simp only [tokens, List.append_assoc, List.cons_append]
    refine ht.andThen fun x ρ' => ?_
    have hp := ihp level ρ' k ⟨hk.quiet, hk.no_equal, hk.no_operator, by simp⟩
    rw [← p.advance_tokens_append o.token] at hp
    exact hp.operation hop fun y ρ'' => RunsAs.multiplication hop x y
  | summand t ih =>
    have h := ih level ρ k ⟨hk.quiet, hk.no_equal, hk.no_operator, by simp⟩
    exact (h.settle (hk.no_factor rfl)).chain
  | sum e o t ihe iht =>
    obtain ⟨op, hop⟩ := o.exists_operator
    have he := ihe level ρ (o.token :: (t.tokens ++ k))
      ⟨by cases o <;> rfl, by cases o <;> simp [Addition.token], by simp, fun _ => by cases o <;> rfl⟩
    simp only [tokens, List.append_assoc, List.cons_append]
    refine he.andThen fun x ρ' => ?_
    have ht := (iht level ρ' k ⟨hk.quiet, hk.no_equal, hk.no_operator, by simp⟩).settle
      (hk.no_factor rfl)
    rw [← t.advance_tokens_append o.token] at ht
    exact ht.operation hop fun y ρ'' => RunsAs.addition hop x y

end Tree

theorem skipStatement_append {ts k : List Token} (hts : ∀ t ∈ ts, t.isBoundary = false)
    (hk : (Token.firstOf k).isBoundary = true) (hq : (Token.firstOf k).report? = none) (m : Store) :
    Desk.skipStatement ⟨ts ++ k, m⟩ = ⟨k, m⟩ := by
  induction ts with
  | nil => exact Desk.skipStatement_of_isBoundary hk
  | cons t ts ih =>
    have ht := hts t List.mem_cons_self
    have hr : (Token.firstOf (ts ++ k)).report? = none := by
      cases ts with
      | nil => exact hq
      | cons u us => exact Token.report?_of_not_boundary (hts u (by simp))
    have ha : Desk.advance ⟨t :: ts ++ k, m⟩ = ⟨ts ++ k, m⟩ := Desk.advance_cons hr t m
    rw [Desk.skipStatement_of_inner (d := ⟨t :: ts ++ k, m⟩) ht, ha]
    exact ih fun u hu => hts u (List.mem_cons_of_mem t hu)

namespace Session

/-- The outcome of a tree, and what it leaves behind. Only a stop is reported. -/
def walk {b : Bool} (s : Session) (t : Tree .expression b) : Outcome × Session :=
  match t.walk s.levels 1 s.store.symbols.environment with
  | (.ok x, ρ) => (.ok x, { s with store := { s.store with symbols := ρ.table } })
  | (.error e, ρ) =>
    (.error e.report, { s with store := ⟨ρ.table, ⟨s.store.log.reports.push e.report⟩⟩ })

theorem store_walk {b : Bool} (s : Session) (t : Tree .expression b) :
    { s with store := (s.walk t).2.store } = (s.walk t).2 := by
  unfold walk
  split <;> rfl

theorem statement_tree {b : Bool} (s : Session) (t : Tree .expression b) {k : List Token}
    (hk : (Token.firstOf k).isBoundary = true) (hq : (Token.firstOf k).report? = none) :
    Desk.statement s.levels ⟨t.tokens ++ k, s.store⟩ =
      ((s.walk t).1, ⟨k, (s.walk t).2.store⟩) := by
  have hl : ∀ l : Level, l.operator? (Token.firstOf k) = none := fun l =>
    Level.operator?_of_isBoundary hk
  have he : Token.firstOf k ≠ .equal := by
    intro he
    rw [he] at hk
    contradiction
  have hr := (t.runsAs_walk s.levels 1 s.store.symbols.environment k s.store.log
    ⟨hq, he, fun _ => hl, fun _ => hl .product⟩).settle (hl .sum)
  rw [SymbolTable.table_environment] at hr
  have hs := ((Part.expression s.levels).reaches ⟨t.tokens ++ k, s.store⟩).eq_append hk
  change RunsAs k s.store.log settled _
    ((Part.expression s.levels).run ⟨t.tokens ++ k, s.store⟩) at hr
  unfold walk
  cases hw : t.walk s.levels 1 s.store.symbols.environment with
  | mk o ρ =>
    rw [hw] at hr
    cases o with
    | ok x =>
      rw [Desk.statement_of_ok hr]
      simp [Desk.closeStatement, hq, hk]
    | error e =>
      obtain ⟨hre, hm⟩ := hr
      cases hp : (Part.expression s.levels).run ⟨t.tokens ++ k, s.store⟩ with
      | mk o d =>
        rw [hp] at hre hm hs
        cases hre
        obtain ⟨us, hu, hsuf⟩ := hs
        obtain rfl : d = ⟨us ++ k, ⟨ρ.table, s.store.log.add e.report⟩⟩ := by
          rw [← hu, ← hm]
        have hus : ∀ u ∈ us, u.isBoundary = false := fun u hu =>
          t.isBoundary_of_mem_tokens u (hsuf.subset hu)
        rw [Desk.statement_of_error hp, skipStatement_append hus hk hq]
        rfl

theorem evaluateTokens_separators (s : Session) {ts : List Token}
    (h : ∀ t ∈ ts, t = .semicolon ∨ t = .newline) : s.evaluateTokens ts = ([], s) := by
  induction ts with
  | nil => exact s.evaluateTokens_nil
  | cons t ts ih =>
    have ht := h t List.mem_cons_self
    rw [s.evaluateTokens_separator ts (by rcases ht with rfl | rfl <;> simp)
      (by rcases ht with rfl | rfl <;> rfl) (by rcases ht with rfl | rfl <;> rfl)]
    exact ih fun u hu => h u (List.mem_cons_of_mem t hu)

theorem evaluateTokens_tree {b : Bool} (s : Session) (t : Tree .expression b) {separators : List Token}
    (hs : ∀ u ∈ separators, u = .semicolon ∨ u = .newline) :
    s.evaluateTokens (t.tokens ++ separators) = ([(s.walk t).1], (s.walk t).2) := by
  have hk : (Token.firstOf separators).isBoundary = true ∧
      (Token.firstOf separators).report? = none := by
    cases separators with
    | nil => exact ⟨rfl, rfl⟩
    | cons u us => rcases hs u List.mem_cons_self with rfl | rfl <;> exact ⟨rfl, rfl⟩
  have hs' : ∀ u ∈ separators.tail, u = .semicolon ∨ u = .newline := fun u hu =>
    hs u (List.mem_of_mem_tail hu)
  rw [s.evaluateTokens_statement t.tokens_ne_nil t.isBoundary_of_mem_tokens
    (s.statement_tree t hk.1 hk.2), s.store_walk, evaluateTokens_separators _ hs']

/-- Evaluating a text while it is read comes to what the walk over its tree comes to, for every tree, in
every session. Separators may follow. -/
theorem evaluate_eq_walk {b : Bool} (t : Tree .expression b) (s : Session) (text : List Char)
    (separators : List Token) (hs : ∀ u ∈ separators, u = .semicolon ∨ u = .newline)
    (h : tokenize text = t.tokens ++ separators) :
    s.evaluate text = ([(s.walk t).1], (s.walk t).2) := by
  rw [s.evaluate_eq_evaluateTokens, h, s.evaluateTokens_tree t hs]

def productWithAssignment : Tree .expression true :=
  .summand (.product (.factor (.minus (.bracket (.summand (.factor (.name "y")))))) .times
    (.assign "x" (.summand (.factor (.number "2" (Decimal.toFloat ⟨2, 0⟩))))))

theorem tokenize_productWithAssignment :
    tokenize "-(y) * x = 2;".toList = productWithAssignment.tokens ++ [.semicolon] := by
  have hw : Writing.Lexical
      (.piece [] ['-'] (.piece [] ['('] (.piece [] ['y'] (.piece [] [')'] (.piece [' '] ['*']
        (.piece [' '] ['x'] (.piece [' '] ['='] (.piece [' '] ['2'] (.piece [] [';']
          (.last []))))))))))
      (productWithAssignment.tokens ++ [.semicolon]) := by
    refine .piece (by simp) (by decide) (Token.stands_of_ofSymbol? (c := '-') rfl _) ?_
    refine .piece (by simp) (by decide) (Token.stands_of_ofSymbol? (c := '(') rfl _) ?_
    refine .piece (by simp) (by decide) (@Token.Stands.name _ _ 'y' [] (by decide)
      (by simp) ?_ ⟨rfl, by decide, rfl, rfl⟩) ?_
    · exact notNext_cons.2 (by decide +kernel)
    refine .piece (by simp) (by decide) (Token.stands_of_ofSymbol? (c := ')') rfl _) ?_
    refine .piece isGap_of_mem_space (by decide) (Token.stands_of_ofSymbol? (c := '*') rfl _) ?_
    refine .piece isGap_of_mem_space (by decide) (@Token.Stands.name _ _ 'x' [] (by decide)
      (by simp) ?_ ⟨rfl, by decide, rfl, rfl⟩) ?_
    · exact notNext_cons.2 (by decide +kernel)
    refine .piece isGap_of_mem_space (by decide) (Token.stands_of_ofSymbol? (c := '=') rfl _) ?_
    refine .piece isGap_of_mem_space (by decide) (@Token.Stands.number _ _ ['2'] ⟨2, 0⟩
      (isNumeral_whole (List.forall_mem_singleton.2 (by decide)) (by decide)) ?_ (fun _ => ?_) (by decide)
      ⟨rfl, by decide, rfl, rfl⟩) ?_
    · exact notNext_cons.2 (by decide)
    · exact notNext_cons.2 (by decide)
    refine .piece (by simp) (by decide) (Token.stands_of_ofSymbol? (c := ';') rfl _) ?_
    exact .last (by simp)
  exact hw.tokenize_eq

theorem evaluate_productWithAssignment :
    ∃ s : Session, Session.evaluate {} "-(y) * x = 2;".toList = ([.ok (-0.0)], s) ∧
      s.store.symbols.entries =
        [⟨"pi", 3.14159265359⟩, ⟨"ee", 2.71828182846⟩, ⟨"y", 0.0⟩, ⟨"x", 2.0⟩] ∧
      s.store.log = {} := by
  refine ⟨_, evaluate_eq_walk productWithAssignment {} _ [.semicolon] (by simp)
    tokenize_productWithAssignment, ?_, rfl⟩
  decide +kernel

end Session

end DeskCalculator
