/-
Canonical tokens are a phrase again.

For every phrase of the longest reading, the tokens that its tree is written with are a
phrase of the same kind; its tree is the wrapped one, and it nests as deep as that has
levels and no deeper (`Derives.canonical`).  A negation that stood before a comparison may
be written inside it, so a comparison comes with the statement about its negation.
-/
import QueryCanon.Proofs.Grammar.Ambiguity
import QueryCanon.Proofs.Grammar.Spelling

namespace QueryCanon
namespace Grammar

/-- The tokens of `v` are a phrase, for any bound that its levels allow. -/
def Spelled (s : Symbol) (v : s.Value) : Prop :=
  ∀ m, s.levels (s.wrapped v) ≤ m → Derives .longest m s (s.tokens v) (s.wrapped v)

/-- How the canonical text of a comparison ends: only a `NOT` of its own leaves it ajar. -/
def ending : Expr → Ending
  | .not _ => .ajar
  | _ => .closed

/-- A tree that is written as a comparison. -/
structure IsComparison (e : Expr) : Prop where
  notConnective : e.isConnective = false
  spelled : ∀ m, e.wrapped.levels ≤ m →
    Derives .longest m (.comparison (ending e)) e.tokens e.wrapped

/-- A tree that is written as an operand. -/
structure IsOperand (e : Expr) : Prop where
  tight : e.looserThanOperand = false
  spelled : ∀ m, e.wrapped.levels ≤ m → Derives .longest m (.operand .closed) e.tokens e.wrapped

/-- If the tree is written with `EXISTS` first, so was the source. -/
def KeepsExists (ts : List Token) (e : Expr) : Prop :=
  e.tokens.head? = some (.keyword .EXISTS) → ts.head? = some (.keyword .EXISTS)

/-- What is shown of a phrase. -/
def Canonical : (s : Symbol) → List Token → s.Value → Prop
  | .conjunction, _, e => e.looserThanAnd = false ∧ Spelled .conjunction e
  | .comparison e, ts, v => (e = .closed → ending v = .closed) ∧ KeepsExists ts v ∧
    IsComparison v ∧ (ts.head? ≠ some (.keyword .EXISTS) → IsComparison v.negate)
  | .operand .closed, ts, v => KeepsExists ts v ∧ IsOperand v
  | .operand .ajar, ts, v => KeepsExists ts v ∧ v.wrapsAsOperand = true ∧ IsComparison v ∧
    v.negate = .not v
  | .tail _, _, t => Spelled (.tail .closed) t ∧
    ∀ t', t.negate? = some t' → Spelled (.tail .closed) t'
  | .list s, _, vs => s.isWhole = true → vs ≠ [] ∧ Spelled (.list s) vs
  | .clause k s, _, o => s.isWhole = true → Spelled (.clause k s) o
  | s, _, v => Spelled s v

variable {n : Nat} {s : Symbol} {ts us : List Token} {e l r : Expr} {t : Tail}

/-- What needs one level more than `a` is shown one level further in. -/
theorem deeper {v : s.Value} {a : Nat} (h : ∀ k, a ≤ k → Derives .longest (k + 1) s ts v) :
    ∀ m, a + 1 ≤ m → Derives .longest m s ts v := by
  intro m hm
  cases m with
  | zero => exact absurd hm (Nat.not_succ_le_zero a)
  | succ k => exact h k (Nat.le_of_succ_le_succ hm)

/-! ### Negations -/

theorem wrapped_negate (e : Expr) : e.negate.wrapped = e.wrapped.negate := by
  cases e with
  | compare l op r => cases op <;> rfl
  | between e low high negated => cases negated <;> rfl
  | inList e list negated => cases negated <;> rfl
  | inQuery e q negated => cases negated <;> rfl
  | like e pattern negated => cases negated <;> rfl
  | _ => rfl

theorem wrapsAsOperand_negate (e : Expr) : e.negate.wrapsAsOperand = true := by
  unfold Expr.negate
  split <;> rfl

theorem negate_negate (e : Expr) : e.negate.negate = .not e.negate := by
  cases e with
  | compare l op r => cases op <;> rfl
  | between e low high negated => cases negated <;> rfl
  | inList e list negated => cases negated <;> rfl
  | inQuery e q negated => cases negated <;> rfl
  | like e pattern negated => cases negated <;> rfl
  | _ => rfl

theorem negate_of_tight (h : e.looserThanOperand = false) : e.negate = .not e := by
  cases e <;> first | rfl | cases h

theorem ending_of_tight (h : e.looserThanOperand = false) : ending e = .closed := by
  cases e <;> first | rfl | cases h

theorem notConnective_of_tight (h : e.looserThanOperand = false) : e.isConnective = false := by
  cases e <;> first | rfl | cases h

/-- A negation is not written with `EXISTS` first, unless what it negates is. -/
theorem head?_negate (h : e.negate.tokens.head? = some (.keyword .EXISTS)) :
    e.tokens.head? = some (.keyword .EXISTS) := by
  revert h
  unfold Expr.negate
  split <;>
    simp only [Expr.tokens, List.head?_append, List.append_assoc, Comparison.token, notTokens]
  case h_6 => simp
  all_goals
    generalize (encloseIf _ _).head? = o
    cases o <;> simp

/-- `NOT` before a comparison. -/
theorem IsComparison.not (h : IsComparison e) (hnegate : e.negate = .not e)
    (hexists : e.tokens.head? ≠ some (.keyword .EXISTS)) : IsComparison (.not e) := by
  have hwrapped : e.wrapped.negate = .not e.wrapped := by
    rw [← wrapped_negate, hnegate]
    rfl
  have htokens : (Expr.not e).tokens = .keyword .NOT :: e.tokens := by
    simp [Expr.tokens, h.notConnective, encloseIf]
  refine ⟨rfl, deeper fun k hk => ?_⟩
  have hd := ((h.spelled k hk).not fun _ => hexists).operand
  rw [hwrapped, ← htokens] at hd
  exact hd

/-! ### Operands on the right -/

/-- What a comparison, a `BETWEEN` or a `LIKE` writes on its right. -/
def SpelledRight (e : Expr) : Prop :=
  ∀ m, (Expr.parenIf e.wrapsAsOperand e.wrapped).levels ≤ m →
    Derives .longest m (.operand .closed) (encloseIf e.looserThanOperand e.tokens)
      (.parenIf e.wrapsAsOperand e.wrapped)

theorem Canonical.right {ending : Ending} (h : Canonical (.operand ending) ts e) :
    SpelledRight e := by
  intro m hm
  cases ending with
  | closed =>
    obtain ⟨-, htight, hspelled⟩ := h
    have hwraps : e.wrapsAsOperand = false := by
      rw [Bool.eq_false_iff]
      intro hwraps
      rw [Expr.looserThanOperand_of_wraps hwraps] at htight
      cases htight
    rw [hwraps] at hm ⊢
    rw [htight]
    exact hspelled m hm
  | ajar =>
    obtain ⟨-, hwraps, ⟨-, hspelled⟩, -⟩ := h
    rw [hwraps] at hm ⊢
    rw [Expr.looserThanOperand_of_wraps hwraps]
    exact deeper (fun k hk => (hspelled k hk).comparison.conjunction.expression.paren) m hm

/-! ### Tails -/

theorem Canonical.compare {ending : Ending} {op : Comparison}
    (h : Canonical (.operand ending) us r) :
    Canonical (.tail ending) ts (.compare op r) := by
  have hspelled : ∀ op, Spelled (.tail .closed) (.compare op r) := fun op =>
    deeper fun k hk => (h.right k hk).compare
  refine ⟨hspelled op, fun t' ht' => ?_⟩
  cases op <;> cases ht'
  exact hspelled .notEq

theorem Canonical.between {ending ending' : Ending} {negated : Bool} {low high : Expr}
    {us vs : List Token} (hlow : Canonical (.operand ending) us low)
    (hhigh : Canonical (.operand ending') vs high) :
    Canonical (.tail ending') ts (.between low high negated) := by
  have hspelled : ∀ negated, Spelled (.tail .closed) (.between low high negated) := fun negated =>
    deeper fun k hk =>
      (hlow.right k (Nat.max_le.mp hk).1).between (hhigh.right k (Nat.max_le.mp hk).2)
  refine ⟨hspelled negated, fun t' ht' => ?_⟩
  cases negated <;> cases ht'
  exact hspelled true

/-- A list of expressions, as the parts of the tree that have one hold it. -/
theorem Canonical.expressions {es : List Expr} (h : Canonical (.list .expression) us es) (k : Nat)
    (hk : Expr.eachLevels (Expr.eachWrapped es) ≤ k) :
    Derives .longest k (.list .expression) (commaSeparated (Expr.eachTokens es))
      (Expr.eachWrapped es) := by
  rw [eachLevels_eq] at hk
  rw [Expr.eachWrapped_eq_map] at hk ⊢
  rw [Expr.eachTokens_eq_map]
  exact (h rfl).2 k hk

theorem Canonical.inList {negated : Bool} {es : List Expr}
    (h : Canonical (.list .expression) us es) :
    Canonical (.tail .closed) ts (.inList es negated) := by
  have hspelled : ∀ negated, Spelled (.tail .closed) (.inList es negated) := fun negated =>
    deeper fun k hk => (h.expressions k hk).inList
  refine ⟨hspelled negated, fun t' ht' => ?_⟩
  cases negated <;> cases ht'
  exact hspelled true

theorem Canonical.inQuery {negated : Bool} {q : Query} (h : Canonical .query us q) :
    Canonical (.tail .closed) ts (.inQuery q negated) := by
  have hspelled : ∀ negated, Spelled (.tail .closed) (.inQuery q negated) := fun negated =>
    deeper fun k hk => (h k hk).inQuery
  refine ⟨hspelled negated, fun t' ht' => ?_⟩
  cases negated <;> cases ht'
  exact hspelled true

theorem Canonical.like {ending : Ending} {negated : Bool} {pattern : Expr}
    (h : Canonical (.operand ending) us pattern) :
    Canonical (.tail ending) ts (.like pattern negated) := by
  have hspelled : ∀ negated, Spelled (.tail .closed) (.like pattern negated) := fun negated =>
    deeper fun k hk => (h.right k hk).like
  refine ⟨hspelled negated, fun t' ht' => ?_⟩
  cases negated <;> cases ht'
  exact hspelled true

theorem Canonical.isNull {negated : Bool} : Canonical (.tail .closed) ts (.isNull negated) := by
  refine ⟨deeper fun k _ => .isNull negated, fun t' ht' => ?_⟩
  cases negated <;> cases ht'

theorem Tail.head?_tokens_ne (t : Tail) : t.tokens.head? ≠ some (.keyword .EXISTS) := by
  cases t with
  | compare op r => cases op <;> simp [tokens, Comparison.token]
  | between _ _ negated => cases negated <;> simp [tokens, notTokens]
  | inList _ negated => cases negated <;> simp [tokens, notTokens]
  | inQuery _ negated => cases negated <;> simp [tokens, notTokens]
  | like _ negated => cases negated <;> simp [tokens, notTokens]
  | isNull negated => simp [tokens]

/-- What stands on the left needs no parentheses, unless it is a `NOT`. -/
theorem IsComparison.tight (h : IsComparison l) (hclosed : ending l = .closed) :
    l.looserThanComparison = false := by
  have hconnective := h.notConnective
  cases l with
  | and => cases hconnective
  | or => cases hconnective
  | not => cases hclosed
  | _ => rfl

theorem IsComparison.tail (h : IsComparison l) (hclosed : ending l = .closed)
    (ht : Spelled (.tail .closed) t) : IsComparison (t.apply l) := by
  have hending : ending (t.apply l) = .closed := by cases t <;> rfl
  refine ⟨by cases t <;> rfl, fun m hm => ?_⟩
  rw [Tail.wrapped_apply, Tail.levels_apply] at hm
  rw [Tail.wrapped_apply, Tail.tokens_apply, hending, h.tight hclosed]
  obtain ⟨hl, hm⟩ := Nat.max_le.mp hm
  have hd := h.spelled m hl
  rw [hclosed] at hd
  exact hd.tail (fun _ => rfl) (ht m hm)

theorem Canonical.tail {e e' : Ending} (hl : Canonical (.comparison e) ts l) (hclosed : e = .closed)
    (ht : Canonical (.tail e') us t) : Canonical (.comparison e') (ts ++ us) (t.apply l) := by
  obtain ⟨hending, hkeeps, hcomparison, -⟩ := hl
  obtain ⟨hspelled, hnegated⟩ := ht
  have hl : ending l = .closed := hending hclosed
  have hwhole := hcomparison.tail hl hspelled
  have hhead : (t.apply l).tokens.head? = some (.keyword .EXISTS) →
      (ts ++ us).head? = some (.keyword .EXISTS) := by
    rw [Tail.tokens_apply, hcomparison.tight hl, encloseIf, List.head?_append, List.head?_append]
    simp only [Bool.false_eq_true, if_false, Option.or_eq_some_iff]
    rintro (h | ⟨-, h⟩)
    · exact .inl (hkeeps h)
    · exact absurd h t.head?_tokens_ne
  refine ⟨fun _ => by cases t <;> rfl, hhead, hwhole, fun hexists => ?_⟩
  cases hn : t.negate? with
  | some t' =>
    rw [Tail.negate_apply_of_some hn]
    exact hcomparison.tail hl (hnegated t' hn)
  | none =>
    have hnegate := Tail.negate_apply_of_none hn l
    rw [hnegate]
    exact hwhole.not hnegate fun h => hexists (hhead h)

/-! ### Operands -/

theorem Canonical.negation {e' : Ending} (h : Canonical (.comparison e') ts e)
    (hexists : ts.head? ≠ some (.keyword .EXISTS)) :
    Canonical (.operand .ajar) (.keyword .NOT :: ts) e.negate := by
  obtain ⟨-, hkeeps, -, hnegated⟩ := h
  refine ⟨fun h => ?_, wrapsAsOperand_negate e, hnegated hexists, negate_negate e⟩
  exact absurd (hkeeps (head?_negate h)) hexists

theorem Canonical.comparison {e' : Ending} (h : Canonical (.operand e') ts e) :
    Canonical (.comparison e') ts e := by
  cases e' with
  | closed =>
    obtain ⟨hkeeps, htight, hspelled⟩ := h
    have hending := ending_of_tight htight
    have hcomparison : IsComparison e := by
      refine ⟨notConnective_of_tight htight, fun m hm => ?_⟩
      rw [hending]
      exact (hspelled m hm).operand
    refine ⟨fun _ => hending, hkeeps, hcomparison, fun hexists => ?_⟩
    have hnegate := negate_of_tight htight
    rw [hnegate]
    exact hcomparison.not hnegate fun h => hexists (hkeeps h)
  | ajar =>
    obtain ⟨hkeeps, -, hcomparison, hnegate⟩ := h
    refine ⟨nofun, hkeeps, hcomparison, fun hexists => ?_⟩
    rw [hnegate]
    exact hcomparison.not hnegate fun h => hexists (hkeeps h)

theorem denotes_token (l : Literal) : Denotes l.token l := by
  cases l with
  | number text =>
    show Denotes (if text.toList.contains '.' then .decimal text else .integer text) _
    split
    · exact .decimal text
    · exact .integer text
  | string body => exact .string body
  | boolean value => cases value <;> constructor

theorem Canonical.literal {l : Literal} : Canonical (.operand .closed) ts (.literal l) := by
  have hkeeps : KeepsExists ts (.literal l) := by
    intro h
    have hd := denotes_token l
    rw [Expr.tokens, List.head?_cons, Option.some.injEq] at h
    rw [h] at hd
    cases hd
  exact ⟨hkeeps, rfl, deeper fun k _ => .literal (denotes_token l)⟩

theorem Canonical.column {c : ColumnRef} : Canonical (.operand .closed) ts (.column c) := by
  refine ⟨?_, rfl, deeper fun k _ => .column⟩
  obtain ⟨_ | qualifier, name⟩ := c <;> exact nofun

theorem Canonical.call {name : String} {args : List Expr} (h : Canonical .arguments us args) :
    Canonical (.operand .closed) ts (.call name args) :=
  ⟨nofun, rfl, deeper fun k hk => (h k hk).call⟩

theorem Canonical.subquery {q : Query} (h : Canonical .query us q) :
    Canonical (.operand .closed) ts (.subquery q) :=
  ⟨nofun, rfl, deeper fun k hk => (h k hk).subquery⟩

theorem Canonical.paren (h : Canonical .expression us e) :
    Canonical (.operand .closed) ts (.paren e) :=
  ⟨nofun, rfl, deeper fun k hk => (h k hk).paren⟩

theorem Canonical.hasRows {q : Query} (h : Canonical .query us q) :
    Canonical (.operand .closed) (.keyword .EXISTS :: ts) (.hasRows q false) :=
  ⟨fun _ => rfl, rfl, deeper fun k hk => (h k hk).hasRows⟩

theorem Canonical.hasNoRows {q : Query} (h : Canonical .query us q) :
    Canonical (.operand .closed) ts (.hasRows q true) :=
  ⟨nofun, rfl, deeper fun k hk => (h k hk).hasNoRows⟩

theorem Canonical.arguments {args : List Expr} (h : Canonical (.list .expression) us args) :
    Canonical .arguments us args :=
  fun k hk => (h.expressions k hk).arguments

/-! ### Connectives -/

theorem Canonical.conjunction {e' : Ending} (h : Canonical (.comparison e') ts e) :
    Canonical .conjunction ts e := by
  obtain ⟨-, -, ⟨hconnective, hspelled⟩, -⟩ := h
  refine ⟨?_, fun m hm => (hspelled m hm).comparison⟩
  cases e with
  | and => cases hconnective
  | or => cases hconnective
  | _ => rfl

theorem Canonical.and {e' : Ending} (hl : Canonical .conjunction ts l)
    (hr : Canonical (.comparison e') us r) :
    Canonical .conjunction (ts ++ .keyword .AND :: us) (.and l r) := by
  obtain ⟨hloose, hl⟩ := hl
  obtain ⟨hloose', hr'⟩ := hr.conjunction
  obtain ⟨-, -, hcomparison, -⟩ := hr
  have htokens : (Expr.and l r).tokens = l.tokens ++ .keyword .AND :: r.tokens := by
    simp [Expr.tokens, hloose, hloose', encloseIf]
  refine ⟨rfl, fun m hm => ?_⟩
  obtain ⟨hlm, hrm⟩ := Nat.max_le.mp hm
  show Derives .longest m .conjunction (Expr.and l r).tokens (.and l.wrapped r.wrapped)
  rw [htokens]
  cases m with
  | zero => exact absurd hrm (Nat.not_succ_le_zero _)
  | succ k => exact (hl _ hlm).and (hcomparison.spelled k (Nat.le_of_succ_le_succ hrm))

theorem Canonical.or (hl : Canonical .disjunction ts l) (hr : Canonical .conjunction us r) :
    Canonical .disjunction (ts ++ .keyword .OR :: us) (.or l r) := by
  intro m hm
  obtain ⟨hlm, hrm⟩ := Nat.max_le.mp hm
  have htokens : (Expr.or l r).tokens = l.tokens ++ .keyword .OR :: r.tokens := by
    simp [Expr.tokens]
  show Derives .longest m .disjunction (Expr.or l r).tokens (.or l.wrapped r.wrapped)
  rw [htokens]
  cases m with
  | zero => exact absurd hrm (Nat.not_succ_le_zero _)
  | succ k => exact (hl _ hlm).or (hr.2 k (Nat.le_of_succ_le_succ hrm))

theorem Canonical.condition (h : Canonical .expression ts e) : Canonical .condition ts e := by
  intro m hm
  show Derives .longest m .condition (encloseIf e.isConnective e.tokens)
    (.parenIf e.isConnective e.wrapped)
  change (Expr.parenIf e.isConnective e.wrapped).levels ≤ m at hm
  cases hroot : e.isConnective with
  | false =>
    rw [hroot] at hm
    exact (h m hm).condition
  | true =>
    rw [hroot] at hm
    have hparen := deeper (fun k hk => (h k hk).paren) m hm
    exact hparen.operand.comparison.conjunction.expression.condition

/-! ### Lists and clauses -/

theorem Canonical.spelled {v : s.Value} (h : Canonical s ts v) (hs : s.isWhole = true) :
    Spelled s v := by
  cases s with
  | conjunction => exact h.2
  | list s => exact (h hs).2
  | clause k s => exact h hs
  | comparison => cases hs
  | operand => cases hs
  | tail => cases hs
  | _ => exact h

theorem Canonical.one {v : s.Value} (h : Canonical s ts v) : Canonical (.list s) ts [v] := by
  intro hs
  refine ⟨List.cons_ne_nil v [], fun m hm => ?_⟩
  have hd := h.spelled hs m (Nat.max_le.mp hm).1
  show Derives .longest m (.list s) (commaSeparated [s.tokens v]) [s.wrapped v]
  rw [commaSeparated_singleton]
  exact hd.one

theorem Canonical.more {v : s.Value} {vs : List s.Value} (h : Canonical s ts v)
    (hs : Canonical (.list s) us vs) : Canonical (.list s) (ts ++ .comma :: us) (v :: vs) := by
  intro hwhole
  obtain ⟨hne, hmore⟩ := hs hwhole
  refine ⟨List.cons_ne_nil v vs, fun m hm => ?_⟩
  obtain ⟨hv, hvs⟩ := Nat.max_le.mp hm
  have hd := (h.spelled hwhole m hv).more (hmore m hvs)
  show Derives .longest m (.list s) (commaSeparated (s.tokens v :: vs.map s.tokens))
    (s.wrapped v :: vs.map s.wrapped)
  rw [commaSeparated_cons (by simpa using hne)]
  exact hd

theorem Canonical.absent {k : Keyword} : Canonical (.clause k s) [] none := fun _ _ _ => .absent

theorem Canonical.present {k : Keyword} {v : s.Value} (h : Canonical s ts v) :
    Canonical (.clause k s) (.keyword k :: ts) (some v) :=
  fun hs m hm => (h.spelled hs m hm).present

/-! ### Queries -/

theorem Canonical.item {label : Option String} (h : Canonical .expression ts e) :
    Canonical .item us ⟨e, label⟩ :=
  fun m hm => (h m hm).item

theorem Canonical.join {left : Source} {kind : JoinKind} {t : TableRef}
    {condition : Option JoinCondition} (hl : Canonical .source ts left)
    (hc : Canonical (.link kind) us condition) :
    Canonical .source us (.join left (.table t) kind condition) := by
  intro m hm
  have hwrapped : (Source.join left (.table t) kind condition).wrapped =
      .join left.wrapped (.table t) kind (condition.map JoinCondition.wrapped) := by
    cases condition <;> rfl
  change (Source.join left (.table t) kind condition).wrapped.levels ≤ m at hm
  show Derives .longest m .source (Source.join left (.table t) kind condition).tokens
    (Source.join left (.table t) kind condition).wrapped
  rw [hwrapped, Source.levels_join] at hm
  rw [hwrapped, Source.tokens_join]
  obtain ⟨hlm, hcm⟩ := Nat.max_le.mp hm
  exact (hl m (Nat.max_le.mp hlm).1).join (.spelled kind) (hc m hcm)

theorem Canonical.query {vs ws : List Token} {items : List SelectItem} {source : Option Source}
    {scope : Option String} {filter : Option Expr} {groups : List ColumnRef}
    {groupFilter : Option Expr} {order : List OrderItem} {limit : Option String}
    (hitems : Canonical (.list .item) ts items)
    (hsource : Canonical (.clause .FROM .source) us source)
    (hfilter : Canonical (.clause .WHERE .condition) vs filter)
    (hgroupFilter : Canonical (.clause .HAVING .condition) ws groupFilter) :
    Canonical .query us ⟨items, source, scope, filter, groups, groupFilter, order, limit⟩ := by
  intro m hm
  obtain ⟨hne, hitems⟩ := hitems rfl
  change (Query.wrapped _).levels ≤ m at hm
  show Derives .longest m .query (Query.tokens _) (Query.wrapped _)
  rw [Query.wrapped_eq, Query.levels_eq, items_eachLevels_eq, SelectItem.eachWrapped_eq_map] at hm
  rw [Query.wrapped_eq, Query.tokens_eq, SelectItem.eachWrapped_eq_map, itemTokens_eq hne]
  obtain ⟨h₁, hm⟩ := Nat.max_le.mp hm
  obtain ⟨h₂, hm⟩ := Nat.max_le.mp hm
  obtain ⟨h₃, h₄⟩ := Nat.max_le.mp hm
  exact (hitems m h₁).query (hsource rfl m h₂) (hfilter rfl m h₃) (hgroupFilter rfl m h₄)

/-- The canonical tokens of a phrase are a phrase, with the wrapped tree. -/
theorem Derives.canonical {v : s.Value} (h : Derives .longest n s ts v) : Canonical s ts v := by
  induction h with
  | query _ _ _ _ ih₁ ih₂ ih₃ ih₄ => exact Canonical.query ih₁ ih₂ ih₃ ih₄
  | star => exact fun _ _ => .star
  | item _ ih => exact Canonical.item ih
  | table => exact fun _ _ => .table
  | join _ _ _ ih₁ ih₂ => exact Canonical.join ih₁ ih₂
  | unconditional => exact fun _ _ => .unconditional
  | test hk _ ih => exact fun m hm => .test hk (ih m hm)
  | columns hk => exact fun _ _ => .columns hk
  | condition _ ih => exact Canonical.condition ih
  | expression _ ih => exact fun m hm => (ih m hm).expression
  | conjunction _ ih => exact fun m hm => (ih.2 m hm).conjunction
  | or _ _ ih₁ ih₂ => exact Canonical.or ih₁ ih₂
  | comparison _ ih => exact Canonical.conjunction ih
  | and _ _ ih₁ ih₂ => exact Canonical.and ih₁ ih₂
  | operand _ ih => exact Canonical.comparison ih
  | tail _ hadmits _ ih₁ ih₂ => exact Canonical.tail ih₁ (hadmits rfl) ih₂
  | compare _ ih => exact Canonical.compare ih
  | between _ _ ih₁ ih₂ => exact Canonical.between ih₁ ih₂
  | inList _ ih => exact Canonical.inList ih
  | inQuery _ ih => exact Canonical.inQuery ih
  | like _ ih => exact Canonical.like ih
  | isNull negated => exact Canonical.isNull
  | literal hl => exact Canonical.literal
  | column => exact Canonical.column
  | call _ ih => exact Canonical.call ih
  | subquery _ ih => exact Canonical.subquery ih
  | paren _ ih => exact Canonical.paren ih
  | hasRows _ ih => exact Canonical.hasRows ih
  | hasNoRows _ ih => exact Canonical.hasNoRows ih
  | not _ hexists ih => exact Canonical.negation ih (hexists nofun)
  | noArguments => exact fun _ _ => .noArguments
  | starArgument => exact fun _ _ => .starArgument
  | arguments _ ih => exact Canonical.arguments ih
  | one _ ih => exact Canonical.one ih
  | more _ _ ih₁ ih₂ => exact Canonical.more ih₁ ih₂
  | absent => exact Canonical.absent
  | present _ ih => exact Canonical.present ih

end Grammar
end QueryCanon
