/-
Equality of queries is decidable.

`Expr.same` compares two expressions part by part; `Expr.same_iff` says that it finds
exactly the equal ones, and so for the other parts of a query.
-/
import QueryCanon.Query.Basic

namespace QueryCanon

mutual

def Expr.same : Expr → Expr → Bool
  | .star, .star => true
  | .column c, .column c' => c == c'
  | .literal l, .literal l' => l == l'
  | .call name args, .call name' args' => name == name' && Expr.sameList args args'
  | .subquery q, .subquery q' => q.same q'
  | .and l r, .and l' r' => l.same l' && r.same r'
  | .or l r, .or l' r' => l.same l' && r.same r'
  | .not e, .not e' => e.same e'
  | .paren e, .paren e' => e.same e'
  | .compare l op r, .compare l' op' r' => l.same l' && op == op' && r.same r'
  | .between e low high n, .between e' low' high' n' =>
    e.same e' && low.same low' && high.same high' && n == n'
  | .inList e list n, .inList e' list' n' => e.same e' && Expr.sameList list list' && n == n'
  | .inQuery e q n, .inQuery e' q' n' => e.same e' && q.same q' && n == n'
  | .like e p n, .like e' p' n' => e.same e' && p.same p' && n == n'
  | .isNull e n, .isNull e' n' => e.same e' && n == n'
  | .hasRows q n, .hasRows q' n' => q.same q' && n == n'
  | _, _ => false

def Expr.sameList : List Expr → List Expr → Bool
  | [], [] => true
  | e :: es, e' :: es' => e.same e' && Expr.sameList es es'
  | _, _ => false

def SelectItem.same : SelectItem → SelectItem → Bool
  | ⟨e, label⟩, ⟨e', label'⟩ => e.same e' && label == label'

def SelectItem.sameList : List SelectItem → List SelectItem → Bool
  | [], [] => true
  | item :: items, item' :: items' => item.same item' && SelectItem.sameList items items'
  | _, _ => false

def JoinCondition.same : JoinCondition → JoinCondition → Bool
  | .test e, .test e' => e.same e'
  | .columns names, .columns names' => names == names'
  | _, _ => false

def JoinCondition.sameOption : Option JoinCondition → Option JoinCondition → Bool
  | none, none => true
  | some c, some c' => c.same c'
  | _, _ => false

def Source.same : Source → Source → Bool
  | .table t, .table t' => t == t'
  | .join l r kind c, .join l' r' kind' c' =>
    l.same l' && r.same r' && kind == kind' && JoinCondition.sameOption c c'
  | _, _ => false

def Source.sameOption : Option Source → Option Source → Bool
  | none, none => true
  | some s, some s' => s.same s'
  | _, _ => false

def Expr.sameOption : Option Expr → Option Expr → Bool
  | none, none => true
  | some e, some e' => e.same e'
  | _, _ => false

def Query.same : Query → Query → Bool
  | ⟨items, source, scope, filter, groups, groupFilter, order, limit⟩,
    ⟨items', source', scope', filter', groups', groupFilter', order', limit'⟩ =>
    SelectItem.sameList items items' && Source.sameOption source source' && scope == scope' &&
      Expr.sameOption filter filter' && groups == groups' &&
      Expr.sameOption groupFilter groupFilter' && order == order' && limit == limit'

end

mutual

theorem Expr.same_iff (e e' : Expr) : e.same e' = true ↔ e = e' := by
  cases e <;> cases e' <;>
    simp [Expr.same, Expr.same_iff, Expr.sameList_iff, Query.same_iff, and_assoc]
termination_by structural e

theorem Expr.sameList_iff (es es' : List Expr) : Expr.sameList es es' = true ↔ es = es' := by
  cases es <;> cases es' <;> simp [Expr.sameList, Expr.same_iff, Expr.sameList_iff]
termination_by structural es

theorem SelectItem.same_iff (item item' : SelectItem) :
    item.same item' = true ↔ item = item' := by
  cases item
  cases item'
  simp [SelectItem.same, Expr.same_iff]
termination_by structural item

theorem SelectItem.sameList_iff (items items' : List SelectItem) :
    SelectItem.sameList items items' = true ↔ items = items' := by
  cases items <;> cases items' <;>
    simp [SelectItem.sameList, SelectItem.same_iff, SelectItem.sameList_iff]
termination_by structural items

theorem JoinCondition.same_iff (c c' : JoinCondition) : c.same c' = true ↔ c = c' := by
  cases c <;> cases c' <;> simp [JoinCondition.same, Expr.same_iff]
termination_by structural c

theorem JoinCondition.sameOption_iff (c c' : Option JoinCondition) :
    JoinCondition.sameOption c c' = true ↔ c = c' := by
  cases c <;> cases c' <;> simp [JoinCondition.sameOption, JoinCondition.same_iff]
termination_by structural c

theorem Source.same_iff (s s' : Source) : s.same s' = true ↔ s = s' := by
  cases s <;> cases s' <;>
    simp [Source.same, Source.same_iff, JoinCondition.sameOption_iff, and_assoc]
termination_by structural s

theorem Source.sameOption_iff (s s' : Option Source) :
    Source.sameOption s s' = true ↔ s = s' := by
  cases s <;> cases s' <;> simp [Source.sameOption, Source.same_iff]
termination_by structural s

theorem Expr.sameOption_iff (e e' : Option Expr) : Expr.sameOption e e' = true ↔ e = e' := by
  cases e <;> cases e' <;> simp [Expr.sameOption, Expr.same_iff]
termination_by structural e

theorem Query.same_iff (q q' : Query) : q.same q' = true ↔ q = q' := by
  cases q
  cases q'
  simp [Query.same, SelectItem.sameList_iff, Source.sameOption_iff, Expr.sameOption_iff, and_assoc]
termination_by structural q

end

instance : DecidableEq Expr := fun e e' => decidable_of_iff _ (Expr.same_iff e e')

instance : DecidableEq Query := fun q q' => decidable_of_iff _ (Query.same_iff q q')

end QueryCanon
