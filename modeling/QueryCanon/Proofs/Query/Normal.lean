/-
A normal form, in which trees of the same grouping agree.

Parentheses are gone, a chain of one connective hangs to the left, and a `NOT` stands as a
node of its own only over what cannot carry it.  The parentheses that canonical text adds
make no difference to it (`Expr.normal_wrapped`).
-/
import QueryCanon.Proofs.Query.Wrapped

namespace QueryCanon

namespace Expr

/-- `l AND r`, where a chain of `AND` on the right goes on with the one on the left. -/
def andLeft (l : Expr) : Expr → Expr
  | and a b => and (l.andLeft a) b
  | r => and l r

/-- `l OR r`, where a chain of `OR` on the right goes on with the one on the left. -/
def orLeft (l : Expr) : Expr → Expr
  | or a b => or (l.orLeft a) b
  | r => or l r

/-- The negation of an operand, which `EXISTS` takes up too. -/
def absorbed : Expr → Expr
  | hasRows q false => hasRows q true
  | e => e.negate

end Expr

mutual

def Expr.normal : Expr → Expr
  | .star => .star
  | .column c => .column c
  | .literal l => .literal l
  | .call name args => .call name (Expr.eachNormal args)
  | .subquery q => .subquery q.normal
  | .and l r => l.normal.andLeft r.normal
  | .or l r => l.normal.orLeft r.normal
  | .not e => e.normal.absorbed
  | .paren e => e.normal
  | .compare l op r => .compare l.normal op r.normal
  | .between e low high negated => .between e.normal low.normal high.normal negated
  | .inList e list negated => .inList e.normal (Expr.eachNormal list) negated
  | .inQuery e q negated => .inQuery e.normal q.normal negated
  | .like e pattern negated => .like e.normal pattern.normal negated
  | .isNull e negated => .isNull e.normal negated
  | .hasRows q negated => .hasRows q.normal negated

def Expr.eachNormal : List Expr → List Expr
  | [] => []
  | e :: es => e.normal :: Expr.eachNormal es

def SelectItem.normal : SelectItem → SelectItem
  | ⟨e, label⟩ => ⟨e.normal, label⟩

def SelectItem.eachNormal : List SelectItem → List SelectItem
  | [] => []
  | item :: items => item.normal :: SelectItem.eachNormal items

def JoinCondition.normal : JoinCondition → JoinCondition
  | .test e => .test e.normal
  | .columns names => .columns names

def Source.normal : Source → Source
  | .table t => .table t
  | .join l r kind none => .join l.normal r.normal kind none
  | .join l r kind (some c) => .join l.normal r.normal kind (some c.normal)

def Query.normal : Query → Query
  | ⟨items, source, scope, filter, groups, groupFilter, order, limit⟩ =>
    ⟨SelectItem.eachNormal items,
      (match source with
        | none => none
        | some s => some s.normal),
      scope,
      (match filter with
        | none => none
        | some e => some e.normal),
      groups,
      (match groupFilter with
        | none => none
        | some e => some e.normal),
      order, limit⟩

end

theorem Query.normal_eq (items : List SelectItem) (source : Option Source) (scope : Option String)
    (filter : Option Expr) (groups : List ColumnRef) (groupFilter : Option Expr)
    (order : List OrderItem) (limit : Option String) :
    Query.normal ⟨items, source, scope, filter, groups, groupFilter, order, limit⟩ =
      ⟨SelectItem.eachNormal items, source.map Source.normal, scope, filter.map Expr.normal, groups,
        groupFilter.map Expr.normal, order, limit⟩ := by
  cases source <;> cases filter <;> cases groupFilter <;> rfl

namespace Expr

@[simp]
theorem normal_parenIf (needed : Bool) (e : Expr) : (parenIf needed e).normal = e.normal := by
  cases needed <;> rfl

/-! ### Chains -/

theorem andLeft_assoc (l a b : Expr) : l.andLeft (a.andLeft b) = (l.andLeft a).andLeft b := by
  cases b with
  | and c d => simp only [andLeft, andLeft_assoc l a c]
  | _ => rfl
termination_by structural b

theorem orLeft_assoc (l a b : Expr) : l.orLeft (a.orLeft b) = (l.orLeft a).orLeft b := by
  cases b with
  | or c d => simp only [orLeft, orLeft_assoc l a c]
  | _ => rfl
termination_by structural b

theorem normal_andLeft (l r : Expr) : (l.andLeft r).normal = l.normal.andLeft r.normal := by
  cases r with
  | and a b => simp only [andLeft, normal, normal_andLeft l a, andLeft_assoc]
  | _ => rfl
termination_by structural r

theorem normal_orLeft (l r : Expr) : (l.orLeft r).normal = l.normal.orLeft r.normal := by
  cases r with
  | or a b => simp only [orLeft, normal, normal_orLeft l a, orLeft_assoc]
  | _ => rfl
termination_by structural r

/-- It makes no difference whether a predicate took its negation up before. -/
theorem normal_negate (e : Expr) : e.negate.normal = e.normal.absorbed := by
  unfold negate
  split <;> rfl

end Expr

/-! ### Parentheses that are added -/

open QueryCanon.Expr

mutual

theorem Expr.normal_wrapped (e : Expr) : e.wrapped.normal = e.normal := by
  cases e with
  | star => rfl
  | column => rfl
  | literal => rfl
  | call name args => simp only [Expr.wrapped, Expr.normal, Expr.eachNormal_wrapped args]
  | subquery q => simp only [Expr.wrapped, Expr.normal, Query.normal_wrapped q]
  | and l r => simp only [Expr.wrapped, Expr.normal, Expr.normal_wrapped l, Expr.normal_wrapped r]
  | or l r => simp only [Expr.wrapped, Expr.normal, Expr.normal_wrapped l, Expr.normal_wrapped r]
  | not e => simp only [Expr.wrapped, Expr.normal, Expr.normal_wrapped e]
  | paren e => simp only [Expr.wrapped, Expr.normal, Expr.normal_wrapped e]
  | compare l op r =>
    simp only [Expr.wrapped, Expr.normal, normal_parenIf, Expr.normal_wrapped l,
      Expr.normal_wrapped r]
  | between e low high negated =>
    simp only [Expr.wrapped, Expr.normal, normal_parenIf, Expr.normal_wrapped e,
      Expr.normal_wrapped low, Expr.normal_wrapped high]
  | inList e list negated =>
    simp only [Expr.wrapped, Expr.normal, Expr.normal_wrapped e, Expr.eachNormal_wrapped list]
  | inQuery e q negated =>
    simp only [Expr.wrapped, Expr.normal, Expr.normal_wrapped e, Query.normal_wrapped q]
  | like e pattern negated =>
    simp only [Expr.wrapped, Expr.normal, normal_parenIf, Expr.normal_wrapped e,
      Expr.normal_wrapped pattern]
  | isNull e negated => simp only [Expr.wrapped, Expr.normal, Expr.normal_wrapped e]
  | hasRows q negated => simp only [Expr.wrapped, Expr.normal, Query.normal_wrapped q]
termination_by structural e

theorem Expr.eachNormal_wrapped (es : List Expr) :
    Expr.eachNormal (Expr.eachWrapped es) = Expr.eachNormal es := by
  cases es with
  | nil => rfl
  | cons e es =>
    simp only [Expr.eachWrapped, Expr.eachNormal, Expr.normal_wrapped e, Expr.eachNormal_wrapped es]
termination_by structural es

theorem SelectItem.normal_wrapped (item : SelectItem) : item.wrapped.normal = item.normal := by
  obtain ⟨e, label⟩ := item
  simp only [SelectItem.wrapped, SelectItem.normal, Expr.normal_wrapped e]
termination_by structural item

theorem SelectItem.eachNormal_wrapped (items : List SelectItem) :
    SelectItem.eachNormal (SelectItem.eachWrapped items) = SelectItem.eachNormal items := by
  cases items with
  | nil => rfl
  | cons item items =>
    simp only [SelectItem.eachWrapped, SelectItem.eachNormal, SelectItem.normal_wrapped item,
      SelectItem.eachNormal_wrapped items]
termination_by structural items

theorem JoinCondition.normal_wrapped (c : JoinCondition) : c.wrapped.normal = c.normal := by
  cases c with
  | test e => simp only [JoinCondition.wrapped, JoinCondition.normal, Expr.normal_wrapped e]
  | columns names => rfl
termination_by structural c

theorem Source.normal_wrapped (s : Source) : s.wrapped.normal = s.normal := by
  cases s with
  | table t => rfl
  | join l r kind condition =>
    cases condition with
    | none =>
      simp only [Source.wrapped, Source.normal, Source.normal_wrapped l, Source.normal_wrapped r]
    | some c =>
      simp only [Source.wrapped, Source.normal, Source.normal_wrapped l, Source.normal_wrapped r,
        JoinCondition.normal_wrapped c]
termination_by structural s

theorem Query.normal_wrapped (q : Query) : q.wrapped.normal = q.normal := by
  obtain ⟨items, source, scope, filter, groups, groupFilter, order, limit⟩ := q
  have hsource : (source.map Source.wrapped).map Source.normal = source.map Source.normal := by
    cases source with
    | none => rfl
    | some s => simp only [Option.map_some, Source.normal_wrapped s]
  have hfilter : (filter.map fun e => parenIf e.isConnective e.wrapped).map Expr.normal =
      filter.map Expr.normal := by
    cases filter with
    | none => rfl
    | some e => simp only [Option.map_some, normal_parenIf, Expr.normal_wrapped e]
  have hgroupFilter : (groupFilter.map fun e => parenIf e.isConnective e.wrapped).map Expr.normal =
      groupFilter.map Expr.normal := by
    cases groupFilter with
    | none => rfl
    | some e => simp only [Option.map_some, normal_parenIf, Expr.normal_wrapped e]
  rw [Query.wrapped_eq, Query.normal_eq, Query.normal_eq, SelectItem.eachNormal_wrapped items,
    hsource, hfilter, hgroupFilter]
termination_by structural q

end

end QueryCanon
