/-
How deep the expressions of a tree nest, as a reader counts it.

What stands beside an operator on its left is on the level of the whole; what stands on
its right, between parentheses, among arguments or behind a `NOT` is one level further in.
-/
import QueryCanon.Query.Basic

namespace QueryCanon

mutual

def Expr.levels : Expr → Nat
  | .star => 0
  | .column _ => 1
  | .literal _ => 1
  | .call _ args => Expr.eachLevels args + 1
  | .subquery q => q.levels + 1
  | .and l r => max l.levels (r.levels + 1)
  | .or l r => max l.levels (r.levels + 1)
  | .not e => e.levels + 1
  | .paren e => e.levels + 1
  | .compare l _ r => max l.levels (r.levels + 1)
  | .between e low high _ => max e.levels (max low.levels high.levels + 1)
  | .inList e list _ => max e.levels (Expr.eachLevels list + 1)
  | .inQuery e q _ => max e.levels (q.levels + 1)
  | .like e pattern _ => max e.levels (pattern.levels + 1)
  | .isNull e _ => max e.levels 1
  | .hasRows q _ => q.levels + 1

def Expr.eachLevels : List Expr → Nat
  | [] => 0
  | e :: es => max e.levels (Expr.eachLevels es)

def SelectItem.levels : SelectItem → Nat
  | ⟨e, _⟩ => e.levels

def SelectItem.eachLevels : List SelectItem → Nat
  | [] => 0
  | item :: items => max item.levels (SelectItem.eachLevels items)

def JoinCondition.levels : JoinCondition → Nat
  | .test e => e.levels
  | .columns _ => 0

def Source.levels : Source → Nat
  | .table _ => 0
  | .join l r _ none => max l.levels r.levels
  | .join l r _ (some c) => max (max l.levels r.levels) c.levels

def Query.levels : Query → Nat
  | ⟨items, source, _, filter, _, groupFilter, _, _⟩ =>
    max (SelectItem.eachLevels items)
      (max
        (match source with
          | none => 0
          | some s => s.levels)
        (max
          (match filter with
            | none => 0
            | some e => e.levels)
          (match groupFilter with
            | none => 0
            | some e => e.levels)))

end

theorem Query.levels_eq (items : List SelectItem) (source : Option Source) (scope : Option String)
    (filter : Option Expr) (groups : List ColumnRef) (groupFilter : Option Expr)
    (order : List OrderItem) (limit : Option String) :
    Query.levels ⟨items, source, scope, filter, groups, groupFilter, order, limit⟩ =
      max (SelectItem.eachLevels items) (max (source.elim 0 Source.levels)
        (max (filter.elim 0 Expr.levels) (groupFilter.elim 0 Expr.levels))) := by
  cases source <;> cases filter <;> cases groupFilter <;> rfl

theorem Source.levels_join (l r : Source) (kind : JoinKind) (condition : Option JoinCondition) :
    (Source.join l r kind condition).levels =
      max (max l.levels r.levels) (condition.elim 0 JoinCondition.levels) := by
  cases condition <;> simp [Source.levels]

/-- A negation is at most one level deeper than what it negates. -/
theorem Expr.levels_negate_le (e : Expr) : e.negate.levels ≤ e.levels + 1 := by
  unfold Expr.negate
  split <;> simp only [Expr.levels] <;> omega

end QueryCanon
