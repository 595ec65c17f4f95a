import DeskCalculator.Proofs.Grammar.Tree

/-!
The grammar of expressions over kinds of tokens. It is ambiguous: an assignment may be closed early or
take up what stands to its right. Main statement: whatever has a derivation has a tree, in which every
assignment that no bracket encloses takes up all that it can.
-/
set_option autoImplicit false

namespace DeskCalculator

inductive Derives : Rank → List TokenKind → Prop where
  | number : Derives .primary [.number]
  | name : Derives .primary [.name]
  | assign {ks : List TokenKind} : Derives .expression ks → Derives .primary (.name :: .equal :: ks)
  | minus {ks : List TokenKind} : Derives .primary ks → Derives .primary (.minus :: ks)
  | bracket {ks : List TokenKind} : Derives .expression ks →
      Derives .primary (.bracketOpen :: (ks ++ [.bracketClose]))
  | factor {ks : List TokenKind} : Derives .primary ks → Derives .term ks
  | product {ks ls : List TokenKind} {o : TokenKind} : o = .star ∨ o = .slash → Derives .term ks →
      Derives .primary ls → Derives .term (ks ++ o :: ls)
  | summand {ks : List TokenKind} : Derives .term ks → Derives .expression ks
  | sum {ks ls : List TokenKind} {o : TokenKind} : o = .plus ∨ o = .minus → Derives .expression ks →
      Derives .term ls → Derives .expression (ks ++ o :: ls)

namespace Tree

/-- A factor behind a phrase. A phrase that ends in an open assignment takes it up there. -/
theorem exists_times {r : Rank} {b c : Bool} (t : Tree r b) (o : Multiplication)
    (p : Tree .primary c) (h : r = .primary → b = true) :
    ∃ u : Tree r (b || c), u.tokens = t.tokens ++ o.token :: p.tokens := by
  induction t with
  | number digits x => exact absurd (h rfl) (by decide)
  | name id => exact absurd (h rfl) (by decide)
  | bracket e => exact absurd (h rfl) (by decide)
  | assign id e ih =>
    obtain ⟨u, hu⟩ := ih (by simp)
    exact ⟨.assign id u, by simp [tokens, hu]⟩
  | minus q ih =>
    obtain ⟨u, hu⟩ := ih h
    exact ⟨.minus u, by simp [tokens, hu]⟩
  | @factor b q ih =>
    -- Only where no assignment is open may the factor stay at this level.
    cases b with
    | false => exact ⟨.product (.factor q) o p, rfl⟩
    | true =>
      obtain ⟨u, hu⟩ := ih fun _ => rfl
      exact ⟨.factor u, hu⟩
  | @product b t o' q iht ihq =>
    cases b with
    | false => exact ⟨.product (.product t o' q) o p, rfl⟩
    | true =>
      obtain ⟨u, hu⟩ := ihq fun _ => rfl
      exact ⟨.product t o' u, by simp [tokens, hu]⟩
  | summand t ih =>
    obtain ⟨u, hu⟩ := ih (by simp)
    exact ⟨.summand u, hu⟩
  | sum e o' t ihe iht =>
    obtain ⟨u, hu⟩ := iht (by simp)
    exact ⟨.sum e o' u, by simp [tokens, hu]⟩

theorem exists_plus {r : Rank} {b c : Bool} (t : Tree r b) (o : Addition) (s : Tree .term c)
    (h : r ≠ .expression → b = true) :
    ∃ u : Tree r (b || c), u.tokens = t.tokens ++ o.token :: s.tokens := by
  induction t with
  | number digits x => exact absurd (h (by simp)) (by decide)
  | name id => exact absurd (h (by simp)) (by decide)
  | bracket e => exact absurd (h (by simp)) (by decide)
  | assign id e ih =>
    obtain ⟨u, hu⟩ := ih fun hr => absurd rfl hr
    exact ⟨.assign id u, by simp [tokens, hu]⟩
  | minus q ih =>
    obtain ⟨u, hu⟩ := ih h
    exact ⟨.minus u, by simp [tokens, hu]⟩
  | factor q ih =>
    obtain ⟨u, hu⟩ := ih fun _ => h (by simp)
    exact ⟨.factor u, hu⟩
  | product t o' q iht ihq =>
    obtain ⟨u, hu⟩ := ihq fun _ => h (by simp)
    exact ⟨.product t o' u, by simp [tokens, hu]⟩
  | @summand b t ih =>
    cases b with
    | false => exact ⟨.sum (.summand t) o s, rfl⟩
    | true =>
      obtain ⟨u, hu⟩ := ih fun _ => rfl
      exact ⟨.summand u, hu⟩
  | @sum b e o' t ihe iht =>
    cases b with
    | false => exact ⟨.sum (.sum e o' t) o s, rfl⟩
    | true =>
      obtain ⟨u, hu⟩ := iht fun _ => rfl
      exact ⟨.sum e o' u, by simp [tokens, hu]⟩

end Tree

theorem Token.exists_eq_of_kind_number {t : Token} (h : t.kind = .number) :
    ∃ digits x, t = .number digits x := by
  cases t <;> simp_all [kind]

theorem Token.exists_eq_of_kind_name {t : Token} (h : t.kind = .name) : ∃ id, t = .name id := by
  cases t <;> simp_all [kind]

theorem Token.eq_of_kind_eq {t u : Token} (h : t.kind = u.kind) (hu : u.isBoundary = false)
    (hn : u.kind ≠ .number) (hi : u.kind ≠ .name) : t = u := by
  cases u <;> cases t <;> simp_all [kind, isBoundary]

theorem Multiplication.exists_token_eq {t : Token} (h : t.kind = .star ∨ t.kind = .slash) :
    ∃ o : Multiplication, t = o.token := by
  rcases h with h | h
  · exact ⟨.times, Token.eq_of_kind_eq h rfl (by decide) (by decide)⟩
  · exact ⟨.dividedBy, Token.eq_of_kind_eq h rfl (by decide) (by decide)⟩

theorem Addition.exists_token_eq {t : Token} (h : t.kind = .plus ∨ t.kind = .minus) :
    ∃ o : Addition, t = o.token := by
  rcases h with h | h
  · exact ⟨.plus, Token.eq_of_kind_eq h rfl (by decide) (by decide)⟩
  · exact ⟨.minus, Token.eq_of_kind_eq h rfl (by decide) (by decide)⟩

theorem Derives.exists_tree {r : Rank} {ks : List TokenKind} (h : Derives r ks) {ts : List Token}
    (hts : ts.map Token.kind = ks) : ∃ (b : Bool) (t : Tree r b), t.tokens = ts := by
  induction h generalizing ts with
  | number =>
    obtain ⟨t, rfl, ht⟩ := List.map_eq_singleton_iff.1 hts
    obtain ⟨digits, x, rfl⟩ := Token.exists_eq_of_kind_number ht
    exact ⟨_, .number digits x, rfl⟩
  | name =>
    obtain ⟨t, rfl, ht⟩ := List.map_eq_singleton_iff.1 hts
    obtain ⟨id, rfl⟩ := Token.exists_eq_of_kind_name ht
    exact ⟨_, .name id, rfl⟩
  | assign _ ih =>
    obtain ⟨t, us, rfl, ht, hus⟩ := List.map_eq_cons_iff.1 hts
    obtain ⟨u, vs, rfl, hu, hvs⟩ := List.map_eq_cons_iff.1 hus
    obtain ⟨id, rfl⟩ := Token.exists_eq_of_kind_name ht
    obtain rfl : u = .equal := Token.eq_of_kind_eq hu rfl (by decide) (by decide)
    obtain ⟨b, e, rfl⟩ := ih hvs
    exact ⟨_, .assign id e, rfl⟩
  | minus _ ih =>
    obtain ⟨t, us, rfl, ht, hus⟩ := List.map_eq_cons_iff.1 hts
    obtain rfl : t = .minus := Token.eq_of_kind_eq ht rfl (by decide) (by decide)
    obtain ⟨b, p, rfl⟩ := ih hus
    exact ⟨_, .minus p, rfl⟩
  | bracket _ ih =>
    obtain ⟨t, us, rfl, ht, hus⟩ := List.map_eq_cons_iff.1 hts
    obtain ⟨vs, ws, rfl, hvs, hws⟩ := List.map_eq_append_iff.1 hus
    obtain ⟨w, rfl, hw⟩ := List.map_eq_singleton_iff.1 hws
    obtain rfl : t = .bracketOpen := Token.eq_of_kind_eq ht rfl (by decide) (by decide)
    obtain rfl : w = .bracketClose := Token.eq_of_kind_eq hw rfl (by decide) (by decide)
    obtain ⟨b, e, rfl⟩ := ih hvs
    exact ⟨_, .bracket e, rfl⟩
  | factor _ ih =>
    obtain ⟨b, p, rfl⟩ := ih hts
    exact ⟨_, .factor p, rfl⟩
  | product ho _ _ iht ihp =>
    obtain ⟨us, vs, rfl, hus, hvs⟩ := List.map_eq_append_iff.1 hts
    obtain ⟨v, ws, rfl, hv, hws⟩ := List.map_eq_cons_iff.1 hvs
    obtain ⟨o, rfl⟩ := Multiplication.exists_token_eq (hv ▸ ho)
    obtain ⟨b, t, rfl⟩ := iht hus
    obtain ⟨c, p, rfl⟩ := ihp hws
    obtain ⟨u, hu⟩ := t.exists_times o p (by simp)
    exact ⟨_, u, hu⟩
  | summand _ ih =>
    obtain ⟨b, t, rfl⟩ := ih hts
    exact ⟨_, .summand t, rfl⟩
  | sum ho _ _ ihe iht =>
    obtain ⟨us, vs, rfl, hus, hvs⟩ := List.map_eq_append_iff.1 hts
    obtain ⟨v, ws, rfl, hv, hws⟩ := List.map_eq_cons_iff.1 hvs
    obtain ⟨o, rfl⟩ := Addition.exists_token_eq (hv ▸ ho)
    obtain ⟨b, e, rfl⟩ := ihe hus
    obtain ⟨c, t, rfl⟩ := iht hws
    obtain ⟨u, hu⟩ := e.exists_plus o t fun hr => absurd rfl hr
    exact ⟨_, u, hu⟩

end DeskCalculator
