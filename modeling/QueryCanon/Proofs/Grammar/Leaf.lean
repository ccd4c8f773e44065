/-
The parts of a query that hold no expression: names, columns, tables, entries of
`ORDER BY`, and lists of them.

Each has one spelling.  What its reader takes is that spelling, and in front of a token
that cannot belong to it the reader takes all of it.
-/
import QueryCanon.Proofs.Grammar.Derivation
import QueryCanon.Proofs.Grammar.Reading

namespace QueryCanon

namespace Grammar

open Reader

variable {α : Type} {ts rest : List Token}

/-- The tokens that a name may be. -/
def isName : Token → Bool
  | .identifier _ => true
  | _ => false

theorem isSome_identifier? (t : Token) : (identifier? t).isSome = isName t := by
  cases t <;> rfl

@[simp]
theorem identifier?_eq_some {t : Token} {name : String} :
    identifier? t = some name ↔ t = .identifier name := by
  cases t <;> simp [identifier?]

@[simp]
theorem integer?_eq_some {t : Token} {text : String} :
    integer? t = some text ↔ t = .integer text := by
  cases t <;> simp [integer?]

@[simp]
theorem identifier_done {wanted : Wanted} {name : String} :
    (identifier wanted).read ts = .done name rest ↔ ts = .identifier name :: rest := by
  simp [identifier]

@[simp]
theorem integer_done {wanted : Wanted} {text : String} :
    (integer wanted).read ts = .done text rest ↔ ts = .integer text :: rest := by
  simp [integer]

/-- A label is taken whenever a name comes next. -/
theorem label_done {o : Option String} :
    label.read ts = .done o rest ↔
      ts = optionalName o ++ rest ∧ (o = none → Clear isName rest) := by
  have hclass : (fun t => (identifier? t).isSome) = isName := funext isSome_identifier?
  simp only [label, takeIf_done, identifier?_eq_some, hclass]
  cases o with
  | none =>
    constructor
    · rintro (⟨_, _, _, _, h⟩ | ⟨h, -, rfl⟩)
      · cases h
      · exact ⟨rfl, fun _ => h⟩
    · rintro ⟨rfl, h⟩
      exact .inr ⟨h rfl, rfl, rfl⟩
  | some name => simp [optionalName, eq_comm]

theorem qualified_done {wanted : Wanted} {qualifier : Option String} {name : String} :
    (qualified wanted).read ts = .done (qualifier, name) rest ↔
      ts = qualifiedTokens qualifier name ++ rest ∧
        (qualifier = none → rest.head? ≠ some .dot) := by
  simp only [qualified, bind_done, ↓accept_bind_done, identifier_done, if_true, Bool.false_eq_true,
    if_false, bind_pure_comp, map_done, read_pure, Outcome.done.injEq, Prod.mk.injEq]
  cases qualifier with
  | none =>
    constructor
    · rintro ⟨a, mid, rfl, ⟨us, -, b, -, h, -⟩ | ⟨hdot, ⟨-, rfl⟩, rfl⟩⟩
      · cases h
      · exact ⟨rfl, fun _ => hdot⟩
    · rintro ⟨rfl, hdot⟩
      exact ⟨name, rest, rfl, .inr ⟨hdot rfl, ⟨rfl, rfl⟩, rfl⟩⟩
  | some first =>
    constructor
    · rintro ⟨a, mid, rfl, ⟨us, rfl, b, rfl, h, rfl⟩ | ⟨-, ⟨h, -⟩, -⟩⟩
      · cases h
        exact ⟨rfl, by simp⟩
      · cases h
    · rintro ⟨rfl, -⟩
      exact ⟨first, _, rfl, .inl ⟨_, rfl, name, rfl, rfl, rfl⟩⟩

theorem columnRef_done {c : ColumnRef} :
    columnRef.read ts = .done c rest ↔
      ts = c.tokens ++ rest ∧ (c.qualifier = none → rest.head? ≠ some .dot) := by
  obtain ⟨qualifier, name⟩ := c
  simp only [columnRef, bind_pure_comp, map_done, Prod.exists, ColumnRef.mk.injEq, ColumnRef.tokens]
  constructor
  · rintro ⟨_, _, h, rfl, rfl⟩
    exact qualified_done.mp h
  · intro h
    exact ⟨qualifier, name, qualified_done.mpr h, rfl, rfl⟩

theorem tableRef_done {t : TableRef} :
    tableRef.read ts = .done t rest ↔
      ts = t.tokens ++ rest ∧
        (t.qualifier = none → (optionalName t.label ++ rest).head? ≠ some .dot) ∧
          (t.label = none → Clear isName rest) := by
  obtain ⟨qualifier, name, label⟩ := t
  simp only [tableRef, bind_done, Prod.exists, read_pure, Outcome.done.injEq, TableRef.mk.injEq,
    TableRef.tokens]
  constructor
  · rintro ⟨q, x, mid, hq, o, mid', hl, ⟨rfl, rfl, rfl⟩, rfl⟩
    obtain ⟨rfl, hdot⟩ := qualified_done.mp hq
    obtain ⟨rfl, hname⟩ := label_done.mp hl
    exact ⟨by rw [List.append_assoc], hdot, hname⟩
  · rintro ⟨rfl, hdot, hname⟩
    refine ⟨qualifier, name, optionalName label ++ rest, qualified_done.mpr ⟨?_, hdot⟩, label, rest,
      label_done.mpr ⟨rfl, hname⟩, ⟨rfl, rfl, rfl⟩, rfl⟩
    rw [List.append_assoc]

/-! ### Entries of `ORDER BY` -/

def directionTokens : Option Direction → List Token
  | none => []
  | some d => [d.token]

def nullsTokens : Option NullsPlace → List Token
  | none => []
  | some p => p.tokens

theorem orderItem_tokens (item : OrderItem) :
    item.tokens =
      item.target.tokens ++ (directionTokens item.direction ++ nullsTokens item.nulls) := by
  obtain ⟨target, _ | _, _ | _⟩ := item <;> simp [OrderItem.tokens, directionTokens, nullsTokens]

/-- The tokens that go on with an entry of `ORDER BY`. -/
def continuesOrder : Token → Bool
  | .dot => true
  | .keyword .ASC => true
  | .keyword .DESC => true
  | .keyword .NULLS => true
  | _ => false

@[simp]
theorem direction?_eq_some {t : Token} {d : Direction} : direction? t = some d ↔ t = d.token := by
  cases d <;> simp only [Direction.token] <;> unfold direction? <;> split <;> simp_all

@[simp]
theorem nullsPlace?_eq_some {t : Token} {p : NullsPlace} :
    nullsPlace? t = some p ↔ .keyword .NULLS :: [t] = p.tokens := by
  cases p <;> simp only [NullsPlace.tokens] <;> unfold nullsPlace? <;> split <;> simp_all

theorem orderTarget_done {target : OrderTarget} (h : orderTarget.read ts = .done target rest) :
    ts = target.tokens ++ rest := by
  simp only [orderTarget, ↓takeIf_bind_done, integer?_eq_some, bind_pure_comp, map_done, read_pure,
    Outcome.done.injEq] at h
  obtain ⟨_, us, text, rfl, rfl, rfl, rfl⟩ | ⟨-, c, hc, rfl⟩ := h
  · rfl
  · exact (columnRef_done.mp hc).1

theorem orderItem_done {item : OrderItem} (h : orderItem.read ts = .done item rest) :
    ts = item.tokens ++ rest := by
  simp only [orderItem, bind_done, takeIf_done, direction?_eq_some, introduced_done, require_done,
    nullsPlace?_eq_some, read_pure, Outcome.done.injEq] at h
  obtain ⟨target, mid, htarget, direction, mid', hdirection, nulls, mid'', hnulls, rfl, rfl⟩ := h
  have hd : mid = directionTokens direction ++ mid' := by
    obtain ⟨_, d, rfl, rfl, rfl⟩ | ⟨-, rfl, rfl⟩ := hdirection <;> rfl
  have hn : mid' = nullsTokens nulls ++ mid'' := by
    obtain ⟨us, p, rfl, ⟨t, rfl, ht⟩, rfl⟩ | ⟨-, rfl, rfl⟩ := hnulls
    · simp [nullsTokens, ← ht]
    · rfl
  rw [orderTarget_done htarget, hd, hn, orderItem_tokens]
  simp

theorem head?_ne_of_clear {p : Token → Bool} {t : Token} (h : Clear p rest) (ht : p t = true) :
    rest.head? ≠ some t := by
  intro he
  have hp := h t (Option.mem_def.mpr he)
  rw [ht] at hp
  cases hp

theorem read_orderTarget {target : OrderTarget} (h : rest.head? ≠ some .dot) :
    orderTarget.read (target.tokens ++ rest) = .done target rest := by
  simp only [orderTarget, ↓takeIf_bind_done, integer?_eq_some, bind_pure_comp, map_done, read_pure,
    Outcome.done.injEq]
  cases target with
  | ordinal text => exact .inl ⟨_, rest, text, rfl, rfl, rfl, rfl⟩
  | column c =>
    refine .inr ⟨?_, c, columnRef_done.mpr ⟨rfl, fun _ => h⟩, rfl⟩
    obtain ⟨_ | qualifier, name⟩ := c <;> simp [OrderTarget.tokens, ColumnRef.tokens,
      qualifiedTokens, integer?]

theorem clear_direction? (h : Clear continuesOrder rest) :
    Clear (fun t => (direction? t).isSome) rest := by
  refine h.mono fun t ht => ?_
  obtain ⟨d, hd⟩ := Option.isSome_iff_exists.mp ht
  rw [direction?_eq_some.mp hd]
  cases d <;> rfl

theorem read_direction (direction : Option Direction)
    (h : direction = none → Clear (fun t => (direction? t).isSome) rest) :
    (takeIf direction?).read (directionTokens direction ++ rest) = .done direction rest := by
  rw [takeIf_done]
  cases direction with
  | none => exact .inr ⟨h rfl, rfl, rfl⟩
  | some d => exact .inl ⟨d.token, d, rfl, direction?_eq_some.mpr rfl, rfl⟩

theorem read_nulls (nulls : Option NullsPlace)
    (h : nulls = none → rest.head? ≠ some (.keyword .NULLS)) :
    (introduced .NULLS (require nullsPlace? .nullsPlace)).read (nullsTokens nulls ++ rest) =
      .done nulls rest := by
  simp only [introduced_done, require_done, nullsPlace?_eq_some]
  cases nulls with
  | none => exact .inr ⟨h rfl, rfl, rfl⟩
  | some p => cases p <;> exact .inl ⟨_, _, rfl, ⟨_, rfl, rfl⟩, rfl⟩

theorem read_orderItem {item : OrderItem} (h : Clear continuesOrder rest) :
    orderItem.read (item.tokens ++ rest) = .done item rest := by
  obtain ⟨target, direction, nulls⟩ := item
  have hnulls := read_nulls nulls fun _ => head?_ne_of_clear h rfl
  have hclear : Clear (fun t => (direction? t).isSome) (nullsTokens nulls ++ rest) := by
    cases nulls with
    | none => exact clear_direction? h
    | some p => cases p <;> simp [nullsTokens, NullsPlace.tokens, direction?]
  have hdirection := read_direction direction fun _ => hclear
  simp only [orderItem, bind_done, read_pure, Outcome.done.injEq]
  refine ⟨target, _, ?_, direction, _, hdirection, nulls, rest, hnulls, rfl, rfl⟩
  simp only [orderItem_tokens, List.append_assoc]
  refine read_orderTarget ?_
  obtain _ | _ | _ := direction <;> obtain _ | _ | _ := nulls
  case none.none => exact head?_ne_of_clear h rfl
  all_goals simp [directionTokens, nullsTokens, Direction.token, NullsPlace.tokens]

/-! ### Lists -/

variable {item : Reader α} {f : α → List Token}

theorem of_commaList_done
    (hitem : ∀ {ts a rest}, item.read ts = .done a rest → ts = f a ++ rest) {as : List α}
    (h : (commaList item).read ts = .done as rest) :
    as ≠ [] ∧ ts = commaSeparated (as.map f) ++ rest := by
  induction as generalizing ts with
  | nil =>
    obtain ⟨a, mid, -, ⟨-, h, -⟩ | ⟨us, as', -, -, h⟩⟩ := commaList_done.mp h <;> cases h
  | cons a as ih =>
    refine ⟨List.cons_ne_nil a as, ?_⟩
    obtain ⟨a', mid, hread, ⟨-, he, rfl⟩ | ⟨us, as', rfl, hmore, he⟩⟩ := commaList_done.mp h
    · cases he
      simp [hitem hread]
    · cases he
      obtain ⟨hne, rfl⟩ := ih hmore
      rw [hitem hread, List.map_cons, commaSeparated_cons (by simpa using hne)]
      simp

theorem read_commaList {p : Token → Bool}
    (hitem : ∀ {a rest}, Clear p rest → item.read (f a ++ rest) = .done a rest)
    (hcomma : p .comma = false) (hrest : Clear p rest) (hend : rest.head? ≠ some .comma)
    {as : List α} (h : as ≠ []) :
    (commaList item).read (commaSeparated (as.map f) ++ rest) = .done as rest := by
  induction as with
  | nil => exact absurd rfl h
  | cons a as ih =>
    rw [commaList_done]
    by_cases hne : as = []
    · subst hne
      exact ⟨a, rest, by simpa using hitem hrest, .inl ⟨hend, rfl, rfl⟩⟩
    · refine ⟨a, .comma :: (commaSeparated (as.map f) ++ rest), ?_,
        .inr ⟨_, as, rfl, ih hne, rfl⟩⟩
      rw [List.map_cons, commaSeparated_cons (by simpa using hne), List.append_assoc]
      exact hitem (by simpa using hcomma)

theorem of_listBy_done {k : Keyword}
    (hitem : ∀ {ts a rest}, item.read ts = .done a rest → ts = f a ++ rest) {as : List α}
    (h : (listBy k item).read ts = .done as rest) :
    ts = byTokens k (as.map f) ++ rest := by
  unfold listBy at h
  simp only [↓accept_bind_done, bind_done, expectKeyword_done, if_true, Bool.false_eq_true,
    if_false, read_pure, Outcome.done.injEq] at h
  obtain ⟨us, rfl, _, _, rfl, hlist⟩ | ⟨-, rfl, rfl⟩ := h
  · obtain ⟨hne, rfl⟩ := of_commaList_done hitem hlist
    cases as with
    | nil => exact absurd rfl hne
    | cons a as => rfl
  · rfl

theorem read_listBy {k : Keyword} {p : Token → Bool}
    (hitem : ∀ {a rest}, Clear p rest → item.read (f a ++ rest) = .done a rest)
    (hcomma : p .comma = false) (hrest : Clear p rest) (hend : rest.head? ≠ some .comma)
    (hk : rest.head? ≠ some (.keyword k)) (as : List α) :
    (listBy k item).read (byTokens k (as.map f) ++ rest) = .done as rest := by
  unfold listBy
  simp only [↓accept_bind_done, bind_done, expectKeyword_done, if_true, Bool.false_eq_true,
    if_false, read_pure, Outcome.done.injEq]
  cases as with
  | nil => exact .inr ⟨hk, rfl, rfl⟩
  | cons a as =>
    exact .inl ⟨_, rfl, (), _, rfl,
      read_commaList hitem hcomma hrest hend (List.cons_ne_nil a as)⟩

end Grammar
end QueryCanon
