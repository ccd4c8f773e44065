/-
The tree that canonical text is read as.

The text has parentheses that the tree does not: around an `AND` or an `OR` that is a whole
`WHERE` or `HAVING` condition, and around what a right operand may not be bare.  A reader
gives each pair a node of its own.  `wrapped` puts these nodes in; it leaves the tokens as
they are.
-/
import QueryCanon.Proofs.Query.Clauses

namespace QueryCanon

namespace Expr

/-- A parenthesis around an expression where one is needed. -/
def parenIf (needed : Bool) (e : Expr) : Expr := if needed then paren e else e

/-- As a right operand, a bound of `BETWEEN` or a pattern of `LIKE`, these get a
parenthesis. -/
def wrapsAsOperand : Expr → Bool
  | not .. => true
  | compare .. => true
  | between .. => true
  | inList .. => true
  | inQuery .. => true
  | like .. => true
  | _ => false

end Expr

mutual

def Expr.wrapped : Expr → Expr
  | .star => .star
  | .column c => .column c
  | .literal l => .literal l
  | .call name args => .call name (Expr.eachWrapped args)
  | .subquery q => .subquery q.wrapped
  | .and l r => .and l.wrapped r.wrapped
  | .or l r => .or l.wrapped r.wrapped
  | .not e => .not e.wrapped
  | .paren e => .paren e.wrapped
  | .compare l op r => .compare l.wrapped op (.parenIf r.wrapsAsOperand r.wrapped)
  | .between e low high negated =>
    .between e.wrapped (.parenIf low.wrapsAsOperand low.wrapped)
      (.parenIf high.wrapsAsOperand high.wrapped) negated
  | .inList e list negated => .inList e.wrapped (Expr.eachWrapped list) negated
  | .inQuery e q negated => .inQuery e.wrapped q.wrapped negated
  | .like e pattern negated =>
    .like e.wrapped (.parenIf pattern.wrapsAsOperand pattern.wrapped) negated
  | .isNull e negated => .isNull e.wrapped negated
  | .hasRows q negated => .hasRows q.wrapped negated

def Expr.eachWrapped : List Expr → List Expr
  | [] => []
  | e :: es => e.wrapped :: Expr.eachWrapped es

def SelectItem.wrapped : SelectItem → SelectItem
  | ⟨e, label⟩ => ⟨e.wrapped, label⟩

def SelectItem.eachWrapped : List SelectItem → List SelectItem
  | [] => []
  | item :: items => item.wrapped :: SelectItem.eachWrapped items

def JoinCondition.wrapped : JoinCondition → JoinCondition
  | .test e => .test e.wrapped
  | .columns names => .columns names

def Source.wrapped : Source → Source
  | .table t => .table t
  | .join l r kind none => .join l.wrapped r.wrapped kind none
  | .join l r kind (some c) => .join l.wrapped r.wrapped kind (some c.wrapped)

def Query.wrapped : Query → Query
  | ⟨items, source, scope, filter, groups, groupFilter, order, limit⟩ =>
    ⟨SelectItem.eachWrapped items,
      (match source with
        | none => none
        | some s => some s.wrapped),
      scope,
      (match filter with
        | none => none
        | some e => some (.parenIf e.isConnective e.wrapped)),
      groups,
      (match groupFilter with
        | none => none
        | some e => some (.parenIf e.isConnective e.wrapped)),
      order, limit⟩

end

theorem Expr.eachWrapped_eq_map (es : List Expr) : Expr.eachWrapped es = es.map Expr.wrapped := by
  induction es with
  | nil => rfl
  | cons e es ih => simp [Expr.eachWrapped, ih]

theorem SelectItem.eachWrapped_eq_map (items : List SelectItem) :
    SelectItem.eachWrapped items = items.map SelectItem.wrapped := by
  induction items with
  | nil => rfl
  | cons item items ih => simp [SelectItem.eachWrapped, ih]

theorem Query.wrapped_eq (items : List SelectItem) (source : Option Source) (scope : Option String)
    (filter : Option Expr) (groups : List ColumnRef) (groupFilter : Option Expr)
    (order : List OrderItem) (limit : Option String) :
    Query.wrapped ⟨items, source, scope, filter, groups, groupFilter, order, limit⟩ =
      ⟨SelectItem.eachWrapped items, source.map Source.wrapped, scope,
        filter.map fun e => .parenIf e.isConnective e.wrapped, groups,
        groupFilter.map fun e => .parenIf e.isConnective e.wrapped, order, limit⟩ := by
  cases source <;> cases filter <;> cases groupFilter <;> rfl

/-! ### The tokens stay -/

namespace Expr

@[simp]
theorem looserThanAnd_wrapped (e : Expr) : e.wrapped.looserThanAnd = e.looserThanAnd := by
  cases e <;> rfl

@[simp]
theorem looserThanComparison_wrapped (e : Expr) :
    e.wrapped.looserThanComparison = e.looserThanComparison := by
  cases e <;> rfl

@[simp]
theorem looserThanOperand_wrapped (e : Expr) :
    e.wrapped.looserThanOperand = e.looserThanOperand := by
  cases e <;> rfl

@[simp]
theorem isConnective_wrapped (e : Expr) : e.wrapped.isConnective = e.isConnective := by
  cases e <;> rfl

theorem looserThanOperand_of_wraps {e : Expr} (h : e.wrapsAsOperand = true) :
    e.looserThanOperand = true := by
  cases e <;> first | rfl | cases h

/-- A parenthesis that is written anyway may as well be in the tree. -/
theorem encloseIf_operand {e : Expr} (h : e.wrapped.tokens = e.tokens) :
    encloseIf (parenIf e.wrapsAsOperand e.wrapped).looserThanOperand
        (parenIf e.wrapsAsOperand e.wrapped).tokens =
      encloseIf e.looserThanOperand e.tokens := by
  cases hwraps : e.wrapsAsOperand with
  | false => simp [parenIf, h]
  | true =>
    rw [looserThanOperand_of_wraps hwraps]
    simp [parenIf, looserThanOperand, Expr.tokens, encloseIf, h]

theorem conditionTokens_wrapped {e : Expr} (h : e.wrapped.tokens = e.tokens) :
    (parenIf e.isConnective e.wrapped).conditionTokens = e.conditionTokens := by
  unfold conditionTokens
  cases hroot : e.isConnective with
  | false => simp [parenIf, hroot, h]
  | true => simp [parenIf, isConnective, Expr.tokens, encloseIf, h]

end Expr

open QueryCanon.Expr

mutual

theorem Expr.tokens_wrapped (e : Expr) : e.wrapped.tokens = e.tokens := by
  cases e with
  | star => rfl
  | column => rfl
  | literal => rfl
  | call name args => simp only [Expr.wrapped, Expr.tokens, Expr.eachTokens_wrapped args]
  | subquery q => simp only [Expr.wrapped, Expr.tokens, Query.tokens_wrapped q]
  | and l r =>
    simp only [Expr.wrapped, Expr.tokens, looserThanAnd_wrapped, Expr.tokens_wrapped l,
      Expr.tokens_wrapped r]
  | or l r =>
    simp only [Expr.wrapped, Expr.tokens, Expr.tokens_wrapped l, Expr.tokens_wrapped r]
  | not e => simp only [Expr.wrapped, Expr.tokens, isConnective_wrapped, Expr.tokens_wrapped e]
  | paren e => simp only [Expr.wrapped, Expr.tokens, Expr.tokens_wrapped e]
  | compare l op r =>
    simp only [Expr.wrapped, Expr.tokens, looserThanComparison_wrapped, Expr.tokens_wrapped l,
      encloseIf_operand (Expr.tokens_wrapped r)]
  | between e low high negated =>
    simp only [Expr.wrapped, Expr.tokens, looserThanComparison_wrapped, Expr.tokens_wrapped e,
      encloseIf_operand (Expr.tokens_wrapped low), encloseIf_operand (Expr.tokens_wrapped high)]
  | inList e list negated =>
    simp only [Expr.wrapped, Expr.tokens, looserThanComparison_wrapped, Expr.tokens_wrapped e,
      Expr.eachTokens_wrapped list]
  | inQuery e q negated =>
    simp only [Expr.wrapped, Expr.tokens, looserThanComparison_wrapped, Expr.tokens_wrapped e,
      Query.tokens_wrapped q]
  | like e pattern negated =>
    simp only [Expr.wrapped, Expr.tokens, looserThanComparison_wrapped, Expr.tokens_wrapped e,
      encloseIf_operand (Expr.tokens_wrapped pattern)]
  | isNull e negated =>
    simp only [Expr.wrapped, Expr.tokens, looserThanComparison_wrapped, Expr.tokens_wrapped e]
  | hasRows q negated => simp only [Expr.wrapped, Expr.tokens, Query.tokens_wrapped q]
termination_by structural e

theorem Expr.eachTokens_wrapped (es : List Expr) :
    Expr.eachTokens (Expr.eachWrapped es) = Expr.eachTokens es := by
  cases es with
  | nil => rfl
  | cons e es =>
    simp only [Expr.eachWrapped, Expr.eachTokens, Expr.tokens_wrapped e, Expr.eachTokens_wrapped es]
termination_by structural es

theorem SelectItem.tokens_wrapped (item : SelectItem) : item.wrapped.tokens = item.tokens := by
  obtain ⟨e, label⟩ := item
  simp only [SelectItem.wrapped, SelectItem.tokens, Expr.tokens_wrapped e]
termination_by structural item

theorem SelectItem.eachTokens_wrapped (items : List SelectItem) :
    SelectItem.eachTokens (SelectItem.eachWrapped items) = SelectItem.eachTokens items := by
  cases items with
  | nil => rfl
  | cons item items =>
    simp only [SelectItem.eachWrapped, SelectItem.eachTokens, SelectItem.tokens_wrapped item,
      SelectItem.eachTokens_wrapped items]
termination_by structural items

theorem JoinCondition.tokens_wrapped (c : JoinCondition) : c.wrapped.tokens = c.tokens := by
  cases c with
  | test e => simp only [JoinCondition.wrapped, JoinCondition.tokens, Expr.tokens_wrapped e]
  | columns names => rfl
termination_by structural c

theorem Source.tokens_wrapped (s : Source) : s.wrapped.tokens = s.tokens := by
  cases s with
  | table t => rfl
  | join l r kind condition =>
    cases condition with
    | none =>
      simp only [Source.wrapped, Source.tokens, Source.tokens_wrapped l, Source.tokens_wrapped r]
    | some c =>
      simp only [Source.wrapped, Source.tokens, Source.tokens_wrapped l, Source.tokens_wrapped r,
        JoinCondition.tokens_wrapped c]
termination_by structural s

theorem Query.tokens_wrapped (q : Query) : q.wrapped.tokens = q.tokens := by
  obtain ⟨items, source, scope, filter, groups, groupFilter, order, limit⟩ := q
  have hsource : (source.map Source.wrapped).map Source.tokens = source.map Source.tokens := by
    cases source with
    | none => rfl
    | some s => simp only [Option.map_some, Source.tokens_wrapped s]
  have hfilter : (filter.map fun e => parenIf e.isConnective e.wrapped).map conditionTokens =
      filter.map conditionTokens := by
    cases filter with
    | none => rfl
    | some e => simp only [Option.map_some, conditionTokens_wrapped (Expr.tokens_wrapped e)]
  have hgroupFilter :
      (groupFilter.map fun e => parenIf e.isConnective e.wrapped).map conditionTokens =
        groupFilter.map conditionTokens := by
    cases groupFilter with
    | none => rfl
    | some e => simp only [Option.map_some, conditionTokens_wrapped (Expr.tokens_wrapped e)]
  rw [Query.wrapped_eq, Query.tokens_eq, Query.tokens_eq, SelectItem.eachTokens_wrapped items,
    hsource, hfilter, hgroupFilter]
termination_by structural q

end

end QueryCanon
