/-
The tokens of a query, clause by clause.

A clause that a query does not have has no tokens.
-/
import QueryCanon.Query.Tokens

namespace QueryCanon

/-- `USING SCOPE` with its name, or nothing. -/
def scopeTokens : Option String → List Token
  | none => []
  | some name => [.keyword .USING, .keyword .SCOPE, .identifier name]

/-- `GROUP BY` or `ORDER BY` with its list, or nothing. -/
def byTokens (k : Keyword) : List (List Token) → List Token
  | [] => []
  | parts => .keyword k :: .keyword .BY :: commaSeparated parts

/-- `LIMIT` with its number, or nothing. -/
def limitTokens : Option String → List Token
  | none => []
  | some text => [.keyword .LIMIT, .integer text]

/-- What a keyword introduces, or nothing. -/
def clauseTokens (k : Keyword) : Option (List Token) → List Token
  | none => []
  | some ts => .keyword k :: ts

/-- The selected items; without any, an empty place for them. -/
def itemTokens : List (List Token) → List Token
  | [] => [.identifier ""]
  | parts => commaSeparated parts

/-- A whole `WHERE` or `HAVING` condition. -/
def Expr.conditionTokens (e : Expr) : List Token := encloseIf e.isConnective e.tokens

@[simp]
theorem commaSeparated_singleton (part : List Token) : commaSeparated [part] = part := by
  simp [commaSeparated, List.intercalate]

@[simp]
theorem commaSeparated_cons_cons (part next : List Token) (more : List (List Token)) :
    commaSeparated (part :: next :: more) = part ++ .comma :: commaSeparated (next :: more) := by
  simp [commaSeparated, List.intercalate]

theorem commaSeparated_cons {part : List Token} {parts : List (List Token)} (h : parts ≠ []) :
    commaSeparated (part :: parts) = part ++ .comma :: commaSeparated parts := by
  cases parts with
  | nil => exact absurd rfl h
  | cons next more => exact commaSeparated_cons_cons part next more

theorem Query.tokens_eq (items : List SelectItem) (source : Option Source) (scope : Option String)
    (filter : Option Expr) (groups : List ColumnRef) (groupFilter : Option Expr)
    (order : List OrderItem) (limit : Option String) :
    Query.tokens ⟨items, source, scope, filter, groups, groupFilter, order, limit⟩ =
      .keyword .SELECT :: (itemTokens (SelectItem.eachTokens items) ++
        (clauseTokens .FROM (source.map Source.tokens) ++ (scopeTokens scope ++
          (clauseTokens .WHERE (filter.map Expr.conditionTokens) ++
            (byTokens .GROUP (groups.map ColumnRef.tokens) ++
              (clauseTokens .HAVING (groupFilter.map Expr.conditionTokens) ++
                (byTokens .ORDER (order.map OrderItem.tokens) ++ limitTokens limit))))))) := by
  simp only [← List.append_assoc, ← List.cons_append]
  -- The recursion reduces once the parts that it goes into are known.
  cases items <;> cases source <;> cases filter <;> cases groups <;> cases groupFilter <;>
    cases order <;> rfl

/-- Where there are items, their list stands for them. -/
theorem itemTokens_eq {items : List SelectItem} (h : items ≠ []) :
    itemTokens (SelectItem.eachTokens items) = commaSeparated (items.map SelectItem.tokens) := by
  rw [SelectItem.eachTokens_eq_map]
  cases items with
  | nil => exact absurd rfl h
  | cons item more => rfl

theorem Source.tokens_join (l r : Source) (kind : JoinKind) (condition : Option JoinCondition) :
    (Source.join l r kind condition).tokens =
      l.tokens ++ (kind.tokens ++ (r.tokens ++ condition.elim [] JoinCondition.tokens)) := by
  cases condition <;> simp [Source.tokens]

/-! ### Parts without an expression -/

/-- The token needs no other beside it: it is neither a point nor a parenthesis, nor the end of
a statement. -/
def Token.isPlain : Token → Bool
  | .dot => false
  | .leftParen => false
  | .rightParen => false
  | .semicolon => false
  | _ => true

/-- A property that token lists have if all their pieces do.  The pieces are the tokens one
by one, but a point goes with the name behind it, and a parenthesis with its other half and what
they enclose; `CROSS`, which goes with `JOIN`, is left out. -/
structure Piecewise (P : List Token → Prop) : Prop where
  nil : P []
  append : ∀ {ts us : List Token}, P ts → P us → P (ts ++ us)
  enclose : ∀ {ts : List Token}, P ts → P (enclose ts)
  token : ∀ {t : Token}, t.isPlain = true → t ≠ .keyword .CROSS → P [t]
  point : ∀ name, P [.dot, .identifier name]

namespace Piecewise

variable {P : List Token → Prop} (hP : Piecewise P)
include hP

theorem cons {t : Token} {ts : List Token} (ht : t.isPlain = true) (hcross : t ≠ .keyword .CROSS)
    (h : P ts) : P (t :: ts) :=
  hP.append (hP.token ht hcross) h

theorem commaSeparated {parts : List (List Token)} (h : ∀ part ∈ parts, P part) :
    P (commaSeparated parts) := by
  induction parts with
  | nil => exact hP.nil
  | cons part parts ih =>
    obtain ⟨hpart, hparts⟩ := List.forall_mem_cons.mp h
    by_cases hne : parts = []
    · rw [hne, commaSeparated_singleton]
      exact hpart
    · rw [commaSeparated_cons hne]
      exact hP.append hpart (hP.cons rfl nofun (ih hparts))

theorem optionalName (name : Option String) : P (optionalName name) := by
  cases name with
  | none => exact hP.nil
  | some name => exact hP.token rfl nofun

theorem qualified (qualifier : Option String) (name : String) :
    P (qualifiedTokens qualifier name) := by
  cases qualifier with
  | none => exact hP.token rfl nofun
  | some qualifier => exact hP.cons rfl nofun (hP.point name)

theorem column (c : ColumnRef) : P c.tokens := hP.qualified c.qualifier c.name

theorem table (t : TableRef) : P t.tokens :=
  hP.append (hP.qualified t.qualifier t.name) (hP.optionalName t.label)

theorem joinKind {kind : JoinKind} (h : kind ≠ .cross) : P kind.tokens := by
  have hword : ∀ {k : Keyword} {ts : List Token}, k ≠ .CROSS → P ts → P (.keyword k :: ts) :=
    fun hk hts => hP.cons rfl (by simpa using hk) hts
  have hjoin : P [.keyword .JOIN] := hP.token rfl nofun
  cases kind with
  | inner => exact hword (by decide) hjoin
  | leftOuter => exact hword (by decide) (hword (by decide) hjoin)
  | left => exact hword (by decide) hjoin
  | rightOuter => exact hword (by decide) (hword (by decide) hjoin)
  | right => exact hword (by decide) hjoin
  | fullOuter => exact hword (by decide) (hword (by decide) hjoin)
  | full => exact hword (by decide) hjoin
  | cross => exact absurd rfl h

theorem orderItem (item : OrderItem) : P item.tokens := by
  obtain ⟨target, direction, nulls⟩ := item
  have htarget : P target.tokens := by
    cases target with
    | ordinal text => exact hP.token rfl nofun
    | column c => exact hP.column c
  refine hP.append (hP.append htarget ?_) ?_
  · obtain _ | _ | _ := direction
    · exact hP.nil
    all_goals exact hP.token rfl nofun
  · obtain _ | _ | _ := nulls
    · exact hP.nil
    all_goals exact hP.cons rfl nofun (hP.token rfl nofun)

theorem byTokens {k : Keyword} (hk : k ≠ .CROSS) {parts : List (List Token)}
    (h : ∀ part ∈ parts, P part) : P (byTokens k parts) := by
  cases parts with
  | nil => exact hP.nil
  | cons part parts =>
    have hlist := hP.cons (t := .keyword .BY) rfl nofun (hP.commaSeparated h)
    exact hP.cons rfl (by simpa using hk) hlist

theorem scope (scope : Option String) : P (scopeTokens scope) := by
  cases scope with
  | none => exact hP.nil
  | some name => exact hP.cons rfl nofun (hP.cons rfl nofun (hP.token rfl nofun))

theorem limit (limit : Option String) : P (limitTokens limit) := by
  cases limit with
  | none => exact hP.nil
  | some text => exact hP.cons rfl nofun (hP.token rfl nofun)

theorem names (names : List String) :
    P (QueryCanon.commaSeparated (names.map fun name => [.identifier name])) := by
  refine hP.commaSeparated fun part hpart => ?_
  obtain ⟨name, -, rfl⟩ := List.mem_map.mp hpart
  exact hP.token rfl nofun

theorem groups (columns : List ColumnRef) :
    P (QueryCanon.byTokens .GROUP (columns.map ColumnRef.tokens)) := by
  refine hP.byTokens (by decide) fun part hpart => ?_
  obtain ⟨c, -, rfl⟩ := List.mem_map.mp hpart
  exact hP.column c

theorem order (items : List OrderItem) :
    P (QueryCanon.byTokens .ORDER (items.map OrderItem.tokens)) := by
  refine hP.byTokens (by decide) fun part hpart => ?_
  obtain ⟨item, -, rfl⟩ := List.mem_map.mp hpart
  exact hP.orderItem item

end Piecewise

end QueryCanon
