/-
What a reader succeeds on.

For every combinator of `Grammar.Reader` there is one statement here that says when
`r.read ts = .done a rest`, in terms of the readers it is made of.  Nothing further on
unfolds a combinator.
-/
import QueryCanon.Grammar.Script

namespace QueryCanon
namespace Grammar

/-- No token of the class `p` comes next. -/
def Clear (p : Token → Bool) (ts : List Token) : Prop := ∀ t ∈ ts.head?, p t = false

@[simp]
theorem clear_nil (p : Token → Bool) : Clear p [] := fun _ h => nomatch h

@[simp]
theorem clear_cons {p : Token → Bool} {t : Token} {ts : List Token} :
    Clear p (t :: ts) ↔ p t = false := by
  simp [Clear]

theorem Clear.mono {p q : Token → Bool} {ts : List Token} (h : Clear p ts)
    (hpq : ∀ t, q t = true → p t = true) : Clear q ts := by
  intro t ht
  have hp := h t ht
  cases hq : q t with
  | false => rfl
  | true => simp [hpq t hq] at hp

namespace Reader

variable {α β : Type} {ts rest : List Token}

@[simp]
theorem bind_done {r : Reader α} {f : α → Reader β} {b : β} :
    (r >>= f).read ts = .done b rest ↔
      ∃ a mid, r.read ts = .done a mid ∧ (f a).read mid = .done b rest := by
  rw [read_bind]
  cases r.read ts <;> simp [and_assoc]

@[simp]
theorem map_done {r : Reader α} {f : α → β} {b : β} :
    (f <$> r).read ts = .done b rest ↔ ∃ a, r.read ts = .done a rest ∧ f a = b := by
  rw [map_eq_pure_bind]
  simp only [bind_done, read_pure, Outcome.done.injEq]
  constructor
  · rintro ⟨a, _, hr, hb, rfl⟩
    exact ⟨a, hr, hb⟩
  · rintro ⟨a, hr, hb⟩
    exact ⟨a, rest, hr, hb, rfl⟩

@[simp]
theorem fail_not_done {fault : Fault} {a : α} : (fail fault).read ts ≠ .done a rest := by
  simp [fail]

@[simp]
theorem atEnd_done {b : Bool} : atEnd.read ts = .done b rest ↔ ts.isEmpty = b ∧ ts = rest := by
  simp [atEnd]

@[simp]
theorem place_done {n : Nat} : place.read ts = .done n rest ↔ ts.length = n ∧ ts = rest := by
  simp [place]

theorem accept_cons_self (t : Token) (ts : List Token) :
    (accept [t]).read (t :: ts) = .done true ts := by
  simp [accept]

theorem accept_of_head_ne {t : Token} (h : ts.head? ≠ some t) :
    (accept [t]).read ts = .done false ts := by
  cases ts with
  | nil => simp [accept]
  | cons u us =>
    have hne : t ≠ u := fun e => h (by simp [e])
    simp [accept, hne]

/-- Either `t` comes next and is taken, or it does not and nothing is taken. -/
@[simp high]
theorem accept_bind_done {t : Token} {f : Bool → Reader β} {b : β} :
    (accept [t] >>= f).read ts = .done b rest ↔
      (∃ us, ts = t :: us ∧ (f true).read us = .done b rest) ∨
        (ts.head? ≠ some t ∧ (f false).read ts = .done b rest) := by
  by_cases h : ts.head? = some t
  · obtain ⟨us, rfl⟩ : ∃ us, ts = t :: us := by
      cases ts with
      | nil => simp at h
      | cons u us => exact ⟨us, by simpa using h⟩
    simp [bind_done, accept_cons_self, and_assoc]
  · have hne : ∀ us, ts ≠ t :: us := fun us e => h (by simp [e])
    simp [bind_done, accept_of_head_ne h, hne, h, and_assoc]

/-- Two tokens are taken together or not at all. -/
@[simp high]
theorem accept_pair_bind_done {t u : Token} {f : Bool → Reader β} {b : β} :
    (accept [t, u] >>= f).read ts = .done b rest ↔
      (∃ us, ts = t :: u :: us ∧ (f true).read us = .done b rest) ∨
        ((∀ us, ts ≠ t :: u :: us) ∧ (f false).read ts = .done b rest) := by
  by_cases h : ∃ us, ts = t :: u :: us
  · obtain ⟨us, rfl⟩ := h
    simp [bind_done, accept, and_assoc]
  · have hne : ∀ us, ts ≠ t :: u :: us := fun us e => h ⟨us, e⟩
    have hread : (accept [t, u]).read ts = .done false ts := by
      have hpre : ¬ [t, u].isPrefixOf ts = true := by
        intro hp
        obtain ⟨us, hus⟩ := List.isPrefixOf_iff_prefix.mp hp
        exact hne us hus.symm
      simp only [accept, if_neg hpre]
    simp [bind_done, hread, hne, and_assoc]

/-- Either the next token has a value and is taken, or it has none and nothing is
taken. -/
@[simp high]
theorem takeIf_bind_done {γ : Type} {p : Token → Option γ} {f : Option γ → Reader β} {b : β} :
    (takeIf p >>= f).read ts = .done b rest ↔
      (∃ t us c, ts = t :: us ∧ p t = some c ∧ (f (some c)).read us = .done b rest) ∨
        (Clear (fun t => (p t).isSome) ts ∧ (f none).read ts = .done b rest) := by
  cases ts with
  | nil => simp [bind_done, takeIf, and_assoc]
  | cons t us =>
    cases h : p t <;> simp [bind_done, takeIf, h, and_assoc]

@[simp]
theorem takeIf_done {p : Token → Option α} {o : Option α} :
    (takeIf p).read ts = .done o rest ↔
      (∃ t c, ts = t :: rest ∧ p t = some c ∧ o = some c) ∨
        (Clear (fun t => (p t).isSome) ts ∧ o = none ∧ rest = ts) := by
  cases ts with
  | nil => simp [takeIf, eq_comm]
  | cons t us =>
    cases h : p t with
    | none => simp [takeIf, h, eq_comm, and_assoc]
    | some c => simp [takeIf, h, eq_comm, and_assoc, and_comm]

@[simp]
theorem require_done {p : Token → Option α} {wanted : Wanted} {a : α} :
    (require p wanted).read ts = .done a rest ↔ ∃ t, ts = t :: rest ∧ p t = some a := by
  simp only [require, takeIf_bind_done, read_pure, Outcome.done.injEq, fail_not_done, and_false,
    or_false]
  constructor
  · rintro ⟨t, us, c, rfl, hc, rfl, rfl⟩
    exact ⟨t, rfl, hc⟩
  · rintro ⟨t, rfl, hc⟩
    exact ⟨t, rest, a, rfl, hc, rfl, rfl⟩

@[simp]
theorem dispatch_done {next : Token → Option (Reader α)} {wanted : Wanted} {a : α} :
    (dispatch next wanted).read ts = .done a rest ↔
      ∃ t us r, ts = t :: us ∧ next t = some r ∧ r.read us = .done a rest := by
  simp [dispatch]

@[simp]
theorem expect_done {t : Token} {u : Unit} :
    (expect t).read ts = .done u rest ↔ ts = t :: rest := by
  simp [expect]

@[simp]
theorem expectKeyword_done {k : Keyword} {u : Unit} :
    (expectKeyword k).read ts = .done u rest ↔ ts = .keyword k :: rest := by
  simp [expectKeyword]

@[simp]
theorem endOfInput_done {u : Unit} :
    endOfInput.read ts = .done u rest ↔ ts = [] ∧ rest = [] := by
  cases ts with
  | nil =>
    simp only [endOfInput, bind_done, atEnd_done, and_assoc]
    simp [eq_comm]
  | cons t ts => simp [endOfInput, and_assoc]

@[simp]
theorem enclosed_done {r : Reader α} {a : α} :
    (enclosed r).read ts = .done a rest ↔ r.read ts = .done a (.rightParen :: rest) := by
  constructor
  · intro h
    obtain ⟨n, mid, hplace, h⟩ := bind_done.mp h
    obtain ⟨-, rfl⟩ := place_done.mp hplace
    obtain ⟨b, mid', hr, h⟩ := bind_done.mp h
    rcases accept_bind_done.mp h with ⟨us, rfl, h⟩ | ⟨-, h⟩
    · cases h
      exact hr
    · exact absurd h fail_not_done
  · intro hr
    refine bind_done.mpr ⟨ts.length, ts, place_done.mpr ⟨rfl, rfl⟩, ?_⟩
    exact bind_done.mpr ⟨a, _, hr, accept_bind_done.mpr (.inl ⟨rest, rfl, rfl⟩)⟩

@[simp]
theorem inParens_done {r : Reader α} {a : α} :
    (inParens r).read ts = .done a rest ↔
      ∃ us, ts = .leftParen :: us ∧ r.read us = .done a (.rightParen :: rest) := by
  simp [inParens]

@[simp]
theorem introduced_done {k : Keyword} {r : Reader α} {o : Option α} :
    (introduced k r).read ts = .done o rest ↔
      (∃ us a, ts = .keyword k :: us ∧ r.read us = .done a rest ∧ o = some a) ∨
        (ts.head? ≠ some (.keyword k) ∧ o = none ∧ rest = ts) := by
  simp only [introduced, accept_bind_done, if_true, Bool.false_eq_true, if_false, bind_pure_comp,
    map_done, read_pure, Outcome.done.injEq]
  grind

/-! ### Repetition -/

variable {next : Token → Option (Reader α)}

theorem repeated_of_clear (h : Clear (fun t => (next t).isSome) ts) :
    (repeated next).read ts = .done [] ts := by
  show repeated.read next ts = _
  cases ts with
  | nil => rw [repeated.read]
  | cons t us =>
    have hn : next t = none := by simpa using h
    rw [repeated.read, hn]

theorem repeated_cons {t : Token} {us : List Token} {r : Reader α} (h : next t = some r) :
    (repeated next).read (t :: us) =
      match r.read us with
      | .done a left => ((repeated next).read left).map (a :: ·)
      | .failed fault left => .failed fault left :=
  repeated.read_cons h

/-- A property of what is repeated holds of the whole if it holds where nothing is
left to repeat and each round keeps it. -/
theorem repeated_done_induction {P : List Token → List α → List Token → Prop}
    (stop : ∀ ts, Clear (fun t => (next t).isSome) ts → P ts [] ts)
    (step : ∀ t us r a mid as rest, next t = some r → r.read us = .done a mid →
      P mid as rest → P (t :: us) (a :: as) rest)
    {as : List α} (h : (repeated next).read ts = .done as rest) : P ts as rest := by
  change repeated.read next ts = .done as rest at h
  fun_induction repeated.read next ts generalizing as rest with
  | case1 =>
    cases h
    exact stop [] (clear_nil _)
  | case2 t us hn =>
    cases h
    exact stop _ (by simp [hn])
  | case3 t us r hn a mid hr ih =>
    cases hm : repeated.read next mid with
    | done as' left =>
      rw [hm] at h
      cases h
      exact step t us r a mid as' _ hn hr (ih hm)
    | failed fault left =>
      rw [hm] at h
      cases h
  | case4 => cases h

/-- A list is an item that no comma follows, or an item, a comma and a list. -/
theorem commaList_done {item : Reader α} {as : List α} :
    (commaList item).read ts = .done as rest ↔
      ∃ a mid, item.read ts = .done a mid ∧
        ((mid.head? ≠ some .comma ∧ as = [a] ∧ rest = mid) ∨
          ∃ us as', mid = .comma :: us ∧ (commaList item).read us = .done as' rest ∧
            as = a :: as') := by
  simp only [commaList, bind_done, read_pure, Outcome.done.injEq]
  refine exists_congr fun a => exists_congr fun mid => and_congr_right fun _ => ?_
  by_cases h : mid.head? = some .comma
  · obtain ⟨us, rfl⟩ : ∃ us, mid = .comma :: us := by
      cases mid with
      | nil => simp at h
      | cons u us => exact ⟨us, by simpa using h⟩
    rw [repeated_cons (r := item) (by simp)]
    cases hi : item.read us with
    | failed => simp [hi]
    | done b left =>
      cases hm : (repeated fun t => if t = .comma then some item else none).read left with
      | failed => simp [hi, hm, Outcome.map]
      | done bs left' =>
        simp [hi, hm, Outcome.map]
        grind
  · have hclear : Clear (fun t => (if t = .comma then some item else none).isSome) mid := by
      intro t ht
      have hne : t ≠ .comma := fun e => h (by rw [Option.mem_def.mp ht, e])
      simp [hne]
    rw [repeated_of_clear hclear]
    have hne : ∀ us, mid ≠ .comma :: us := fun us e => h (by simp [e])
    simp [h, hne]
    grind

end Reader
end Grammar
end QueryCanon
