/-
Queries as token lists.

Every part of a query has its tokens, in the order in which its text has them.
-/
import QueryCanon.Layout
import QueryCanon.Query.Basic

namespace QueryCanon

def Comparison.token : Comparison → Token
  | eq => .eq
  | notEq => .notEq
  | less => .less
  | lessEq => .lessEq
  | greater => .greater
  | greaterEq => .greaterEq

def Literal.token : Literal → Token
  | number text => if text.toList.contains '.' then .decimal text else .integer text
  | string body => .string body
  | boolean true => .keyword .TRUE
  | boolean false => .keyword .FALSE

/-- A name with its qualifier, if it has one. -/
def qualifiedTokens : Option String → String → List Token
  | none, name => [.identifier name]
  | some qualifier, name => [.identifier qualifier, .dot, .identifier name]

/-- A name that may be missing. -/
def optionalName : Option String → List Token
  | none => []
  | some name => [.identifier name]

def ColumnRef.tokens (c : ColumnRef) : List Token := qualifiedTokens c.qualifier c.name

def TableRef.tokens (t : TableRef) : List Token :=
  qualifiedTokens t.qualifier t.name ++ optionalName t.label

def JoinKind.tokens : JoinKind → List Token
  | inner => [.keyword .INNER, .keyword .JOIN]
  | leftOuter => [.keyword .LEFT, .keyword .OUTER, .keyword .JOIN]
  | left => [.keyword .LEFT, .keyword .JOIN]
  | rightOuter => [.keyword .RIGHT, .keyword .OUTER, .keyword .JOIN]
  | right => [.keyword .RIGHT, .keyword .JOIN]
  | fullOuter => [.keyword .FULL, .keyword .OUTER, .keyword .JOIN]
  | full => [.keyword .FULL, .keyword .JOIN]
  | cross => [.keyword .CROSS, .keyword .JOIN]

def Direction.token : Direction → Token
  | ascending => .keyword .ASC
  | descending => .keyword .DESC

def NullsPlace.tokens : NullsPlace → List Token
  | first => [.keyword .NULLS, .keyword .FIRST]
  | last => [.keyword .NULLS, .keyword .LAST]

def OrderTarget.tokens : OrderTarget → List Token
  | ordinal text => [.integer text]
  | column c => c.tokens

def OrderItem.tokens (item : OrderItem) : List Token :=
  item.target.tokens ++
    (match item.direction with
      | none => []
      | some d => [d.token]) ++
    (match item.nulls with
      | none => []
      | some p => p.tokens)

/-- Parts with a comma between each two. -/
def commaSeparated (parts : List (List Token)) : List Token := [Token.comma].intercalate parts

/-- Parentheses around `tokens`. -/
def enclose (tokens : List Token) : List Token := .leftParen :: tokens ++ [.rightParen]

/-- Parentheses around `tokens` where they are needed. -/
def encloseIf (needed : Bool) (tokens : List Token) : List Token :=
  if needed then enclose tokens else tokens

/-- The `NOT` before a negated predicate. -/
def notTokens (negated : Bool) : List Token := if negated then [.keyword .NOT] else []

mutual

def Expr.tokens : Expr → List Token
  | .star => [.star]
  | .column c => c.tokens
  | .literal l => [l.token]
  | .call name args => .identifier name :: enclose (commaSeparated (Expr.eachTokens args))
  | .subquery q => enclose q.tokens
  | .and l r =>
    encloseIf l.looserThanAnd l.tokens ++ .keyword .AND :: encloseIf r.looserThanAnd r.tokens
  | .or l r => l.tokens ++ .keyword .OR :: r.tokens
  | .not e => .keyword .NOT :: encloseIf e.isConnective e.tokens
  | .paren e => enclose e.tokens
  | .compare l op r =>
    encloseIf l.looserThanComparison l.tokens ++
      op.token :: encloseIf r.looserThanOperand r.tokens
  | .between e low high negated =>
    encloseIf e.looserThanComparison e.tokens ++ notTokens negated ++
      .keyword .BETWEEN :: encloseIf low.looserThanOperand low.tokens ++
        .keyword .AND :: encloseIf high.looserThanOperand high.tokens
  | .inList e list negated =>
    encloseIf e.looserThanComparison e.tokens ++ notTokens negated ++
      .keyword .IN :: enclose (commaSeparated (Expr.eachTokens list))
  | .inQuery e q negated =>
    encloseIf e.looserThanComparison e.tokens ++ notTokens negated ++
      .keyword .IN :: enclose q.tokens
  | .like e pattern negated =>
    encloseIf e.looserThanComparison e.tokens ++ notTokens negated ++
      .keyword .LIKE :: encloseIf pattern.looserThanOperand pattern.tokens
  | .isNull e negated =>
    encloseIf e.looserThanComparison e.tokens ++
      .keyword .IS :: notTokens negated ++ [.keyword .NULL]
  | .hasRows q negated => notTokens negated ++ .keyword .EXISTS :: enclose q.tokens

/-- The tokens of each expression. -/
def Expr.eachTokens : List Expr → List (List Token)
  | [] => []
  | e :: es => e.tokens :: Expr.eachTokens es

def SelectItem.tokens : SelectItem → List Token
  | ⟨e, label⟩ => e.tokens ++ optionalName label

/-- The tokens of each item. -/
def SelectItem.eachTokens : List SelectItem → List (List Token)
  | [] => []
  | item :: items => item.tokens :: SelectItem.eachTokens items

def JoinCondition.tokens : JoinCondition → List Token
  | .test e => .keyword .ON :: e.tokens
  | .columns names =>
    .keyword .USING :: enclose (commaSeparated (names.map fun name => [.identifier name]))

def Source.tokens : Source → List Token
  | .table t => t.tokens
  | .join l r kind none => l.tokens ++ kind.tokens ++ r.tokens
  | .join l r kind (some c) => l.tokens ++ kind.tokens ++ r.tokens ++ c.tokens

/-- A query without items, which no text reads as, keeps an empty place for them. -/
def Query.tokens : Query → List Token
  | ⟨items, source, scope, filter, groups, groupFilter, order, limit⟩ =>
    .keyword .SELECT ::
      (match items with
        | [] => [.identifier ""]
        | item :: more =>
          commaSeparated (item.tokens :: SelectItem.eachTokens more)) ++
      (match source with
        | none => []
        | some s => .keyword .FROM :: s.tokens) ++
      (match scope with
        | none => []
        | some name => [.keyword .USING, .keyword .SCOPE, .identifier name]) ++
      (match filter with
        | none => []
        | some e => .keyword .WHERE :: encloseIf e.isConnective e.tokens) ++
      (match groups with
        | [] => []
        | columns => .keyword .GROUP :: .keyword .BY :: commaSeparated (columns.map (·.tokens))) ++
      (match groupFilter with
        | none => []
        | some e => .keyword .HAVING :: encloseIf e.isConnective e.tokens) ++
      (match order with
        | [] => []
        | entries => .keyword .ORDER :: .keyword .BY :: commaSeparated (entries.map (·.tokens))) ++
      (match limit with
        | none => []
        | some text => [.keyword .LIMIT, .integer text])

end

theorem Expr.eachTokens_eq_map (es : List Expr) : Expr.eachTokens es = es.map Expr.tokens := by
  induction es with
  | nil => rfl
  | cons e es ih => simp [Expr.eachTokens, ih]

theorem SelectItem.eachTokens_eq_map (items : List SelectItem) :
    SelectItem.eachTokens items = items.map SelectItem.tokens := by
  induction items with
  | nil => rfl
  | cons item items ih => simp [SelectItem.eachTokens, ih]

end QueryCanon
