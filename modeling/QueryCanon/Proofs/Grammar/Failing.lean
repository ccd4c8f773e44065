/-
What a reader fails on.

For a combinator there is one statement here that says when `r.read ts = .failed fault rest`,
in terms of the readers it is made of.  Together with the one about success it says all that
the combinator does.
-/
import QueryCanon.Proofs.Grammar.Reading

namespace QueryCanon
namespace Grammar
namespace Reader

variable {α β : Type} {ts rest : List Token} {fault : Fault}

theorem bind_failed {r : Reader α} {f : α → Reader β} :
    (r >>= f).read ts = .failed fault rest ↔
      r.read ts = .failed fault rest ∨
        ∃ a mid, r.read ts = .done a mid ∧ (f a).read mid = .failed fault rest := by
  rw [read_bind]
  cases r.read ts <;> simp [and_assoc]

@[simp]
theorem fail_failed {fault' : Fault} :
    (fail fault' : Reader α).read ts = .failed fault rest ↔ fault' = fault ∧ ts = rest := by
  simp [fail]

/-- What follows a token that may be there fails with it or without it. -/
theorem accept_bind_failed {t : Token} {f : Bool → Reader β} :
    (accept [t] >>= f).read ts = .failed fault rest ↔
      (∃ us, ts = t :: us ∧ (f true).read us = .failed fault rest) ∨
        (ts.head? ≠ some t ∧ (f false).read ts = .failed fault rest) := by
  by_cases h : ts.head? = some t
  · obtain ⟨us, rfl⟩ := List.head?_eq_some_iff.mp h
    rw [read_bind, accept_cons_self]
    simp
  · have hne : ∀ us, ts ≠ t :: us := fun us e => h (by simp [e])
    rw [read_bind, accept_of_head_ne h]
    simp [hne, h]

/-- A pattern is taken as a whole or not at all, and what follows reads on from there. -/
theorem accept_bind_cases (pattern : List Token) (f : Bool → Reader β) (ts : List Token) :
    (∃ us, ts = pattern ++ us ∧ (accept pattern >>= f).read ts = (f true).read us) ∨
      (accept pattern >>= f).read ts = (f false).read ts := by
  rw [read_bind, accept]
  by_cases hpattern : pattern.isPrefixOf ts = true
  · obtain ⟨us, rfl⟩ := List.isPrefixOf_iff_prefix.mp hpattern
    exact .inl ⟨us, rfl, by simp⟩
  · exact .inr (by simp [hpattern])

/-- What follows a token that may have a value fails with that value or without one. -/
theorem takeIf_bind_failed {p : Token → Option α} {f : Option α → Reader β} :
    (takeIf p >>= f).read ts = .failed fault rest ↔
      (∃ t us c, ts = t :: us ∧ p t = some c ∧ (f (some c)).read us = .failed fault rest) ∨
        (Clear (fun t => (p t).isSome) ts ∧ (f none).read ts = .failed fault rest) := by
  cases ts with
  | nil => simp [read_bind, takeIf]
  | cons t us => cases h : p t <;> simp [read_bind, takeIf, h, and_assoc]

theorem takeIf_not_failed {p : Token → Option α} : (takeIf p).read ts ≠ .failed fault rest := by
  cases ts with
  | nil => nofun
  | cons t us =>
    simp only [takeIf]
    cases p t <;> nofun

@[simp]
theorem require_failed {p : Token → Option α} {wanted : Wanted} :
    (require p wanted).read ts = .failed fault rest ↔
      Clear (fun t => (p t).isSome) ts ∧ .expected wanted = fault ∧ ts = rest := by
  cases ts with
  | nil => simp [require, read_bind, takeIf]
  | cons t us => cases h : p t <;> simp [require, read_bind, takeIf, h]

theorem dispatch_failed {next : Token → Option (Reader α)} {wanted : Wanted} :
    (dispatch next wanted).read ts = .failed fault rest ↔
      (Clear (fun t => (next t).isSome) ts ∧ .expected wanted = fault ∧ ts = rest) ∨
        ∃ t us r, ts = t :: us ∧ next t = some r ∧ r.read us = .failed fault rest := by
  cases ts with
  | nil => simp [dispatch, read_bind, takeIf]
  | cons t us => cases h : next t <;> simp [dispatch, read_bind, takeIf, h, and_assoc]

@[simp]
theorem expectKeyword_failed {k : Keyword} :
    (expectKeyword k).read ts = .failed fault rest ↔
      ts.head? ≠ some (.keyword k) ∧ .expected (.keyword k) = fault ∧ ts = rest := by
  simp [expectKeyword, accept_bind_failed]

@[simp]
theorem expect_failed {t : Token} :
    (expect t).read ts = .failed fault rest ↔
      ts.head? ≠ some t ∧ .expected (.token t) = fault ∧ ts = rest := by
  simp [expect, accept_bind_failed]

/-- A parenthesis is not closed, if it is not what it holds that fails. -/
theorem enclosed_failed {r : Reader α} :
    (enclosed r).read ts = .failed fault rest ↔
      r.read ts = .failed fault rest ∨
        ∃ a, r.read ts = .done a rest ∧ rest.head? ≠ some .rightParen ∧
          .unclosed (ts.length + 1) = fault := by
  rw [enclosed, read_bind, place]
  dsimp only
  rw [bind_failed]
  refine or_congr Iff.rfl ⟨?_, ?_⟩
  · rintro ⟨a, mid, hread, h⟩
    obtain ⟨us, -, h⟩ | ⟨hhead, h⟩ := accept_bind_failed.mp h
    · cases h
    · obtain ⟨rfl, rfl⟩ := fail_failed.mp h
      exact ⟨a, hread, hhead, rfl⟩
  · rintro ⟨a, hread, hhead, rfl⟩
    exact ⟨a, rest, hread, accept_bind_failed.mpr (.inr ⟨hhead, fail_failed.mpr ⟨rfl, rfl⟩⟩)⟩

theorem inParens_failed {r : Reader α} :
    (inParens r).read ts = .failed fault rest ↔
      (ts.head? ≠ some .leftParen ∧ .expected (.token .leftParen) = fault ∧ ts = rest) ∨
        ∃ us, ts = .leftParen :: us ∧ (enclosed r).read us = .failed fault rest := by
  simp [inParens, bind_failed]

/-! ### Repetition -/

variable {next : Token → Option (Reader α)}

/-- A property of a failing repetition holds if it does where a round fails, and each round
before that keeps it. -/
theorem repeated_failed_induction {P : List Token → Prop}
    (last : ∀ t us r, next t = some r → r.read us = .failed fault rest → P (t :: us))
    (step : ∀ t us r a mid, next t = some r → r.read us = .done a mid → P mid → P (t :: us))
    (h : (repeated next).read ts = .failed fault rest) : P ts := by
  change repeated.read next ts = .failed fault rest at h
  fun_induction repeated.read next ts with
  | case1 => cases h
  | case2 => cases h
  | case3 t us r hn a mid hr ih =>
    cases hm : repeated.read next mid with
    | done as left =>
      rw [hm] at h
      cases h
    | failed fault' left =>
      rw [hm] at h
      cases h
      exact step t us r a mid hn hr (ih hm)
  | case4 t us r hn fault' left hr =>
    cases h
    exact last t us r hn hr

/-- A list fails at one of its items. -/
theorem commaList_failed_induction {item : Reader α} {P : List Token → Prop}
    (last : ∀ ts, item.read ts = .failed fault rest → P ts)
    (step : ∀ ts a us, item.read ts = .done a (.comma :: us) → P us → P ts)
    (h : (commaList item).read ts = .failed fault rest) : P ts := by
  rcases bind_failed.mp h with h | ⟨first, mid, hfirst, h⟩
  · exact last ts h
  rcases bind_failed.mp h with h | ⟨_, _, _, h⟩
  case inr => cases h
  -- What fails is a list behind a comma, for each list that ends where a comma stands.
  have hround : ∀ ts a, item.read ts = .done a mid → P ts := by
    refine repeated_failed_induction (P := fun mid => ∀ ts a, item.read ts = .done a mid → P ts)
      ?_ ?_ h
    · intro t us r ht hread ts a hitem
      split at ht <;> cases ht
      next hcomma =>
        subst hcomma
        exact step ts a us hitem (last us hread)
    · intro t us r b mid ht hread ih ts a hitem
      split at ht <;> cases ht
      next hcomma =>
        subst hcomma
        exact step ts a us hitem (ih us b hread)
  exact hround ts first hfirst

end Reader
end Grammar
end QueryCanon
