/-
Queries as JSON.

A node of several kinds is an object of one field, named for the kind; a kind without
parts is its bare name.  Every field is written, and one without a value is `null`.
-/
import QueryCanon.Json.Basic
import QueryCanon.Query.Basic

namespace QueryCanon

def Literal.toJson : Literal → Json
  | number text => .tagged "Number" (.string text)
  | string body => .tagged "String" (.string body)
  | boolean value => .tagged "Boolean" (.bool value)

def Comparison.name : Comparison → String
  | eq => "Eq"
  | notEq => "NotEq"
  | less => "Lt"
  | lessEq => "LtEq"
  | greater => "Gt"
  | greaterEq => "GtEq"

def ColumnRef.toJson (c : ColumnRef) : Json :=
  .object [("qualifier", .optionalString c.qualifier), ("name", .string c.name)]

def TableRef.toJson (t : TableRef) : Json :=
  .object [("qualifier", .optionalString t.qualifier), ("name", .string t.name),
    ("alias", .optionalString t.label)]

def JoinKind.name : JoinKind → String
  | inner => "Inner"
  | leftOuter => "LeftOuter"
  | left => "Left"
  | rightOuter => "RightOuter"
  | right => "Right"
  | fullOuter => "FullOuter"
  | full => "Full"
  | cross => "Cross"

def Direction.name : Direction → String
  | ascending => "Asc"
  | descending => "Desc"

def NullsPlace.name : NullsPlace → String
  | first => "First"
  | last => "Last"

def OrderTarget.toJson : OrderTarget → Json
  | ordinal text => .tagged "Ordinal" (.string text)
  | column c => .tagged "Column" c.toJson

def OrderItem.toJson (item : OrderItem) : Json :=
  .object [("target", item.target.toJson),
    ("direction", .optionalString (item.direction.map Direction.name)),
    ("nulls", .optionalString (item.nulls.map NullsPlace.name))]

mutual

def Expr.toJson : Expr → Json
  | .star => .string "Star"
  | .column c => .tagged "Column" c.toJson
  | .literal l => .tagged "Literal" l.toJson
  | .call name args =>
    .tagged "Function" (.object [("name", .string name), ("args", .array (Expr.eachToJson args))])
  | .subquery q => .tagged "Subquery" q.toJson
  | .and l r => .tagged "And" (.array [l.toJson, r.toJson])
  | .or l r => .tagged "Or" (.array [l.toJson, r.toJson])
  | .not e => .tagged "Not" e.toJson
  | .paren e => .tagged "Paren" e.toJson
  | .compare l op r =>
    .tagged "Compare" (.object [("left", l.toJson), ("op", .string op.name), ("right", r.toJson)])
  | .between e low high negated =>
    .tagged "Between" (.object [("expr", e.toJson), ("low", low.toJson), ("high", high.toJson),
      ("negated", .bool negated)])
  | .inList e list negated =>
    .tagged "InList" (.object [("expr", e.toJson), ("list", .array (Expr.eachToJson list)),
      ("negated", .bool negated)])
  | .inQuery e q negated =>
    .tagged "InSubquery" (.object [("expr", e.toJson), ("query", q.toJson),
      ("negated", .bool negated)])
  | .like e pattern negated =>
    .tagged "Like" (.object [("expr", e.toJson), ("pattern", pattern.toJson),
      ("negated", .bool negated)])
  | .isNull e negated =>
    .tagged "IsNull" (.object [("expr", e.toJson), ("negated", .bool negated)])
  | .hasRows q negated =>
    .tagged "Exists" (.object [("query", q.toJson), ("negated", .bool negated)])

/-- Each expression as JSON. -/
def Expr.eachToJson : List Expr → List Json
  | [] => []
  | e :: es => e.toJson :: Expr.eachToJson es

def SelectItem.toJson : SelectItem → Json
  | ⟨e, label⟩ => .object [("expr", e.toJson), ("alias", .optionalString label)]

/-- Each item as JSON. -/
def SelectItem.eachToJson : List SelectItem → List Json
  | [] => []
  | item :: items => item.toJson :: SelectItem.eachToJson items

def JoinCondition.toJson : JoinCondition → Json
  | .test e => .tagged "On" e.toJson
  | .columns names => .tagged "Using" (.array (names.map Json.string))

def Source.toJson : Source → Json
  | .table t => .tagged "Table" t.toJson
  | .join l r kind condition =>
    .tagged "Join" (.object [("left", l.toJson), ("right", r.toJson),
      ("join_type", .string kind.name),
      ("condition",
        match condition with
        | none => .null
        | some c => c.toJson)])

def Query.toJson : Query → Json
  | ⟨items, source, scope, filter, groups, groupFilter, order, limit⟩ =>
    .object [("items", .array (SelectItem.eachToJson items)),
      ("from",
        match source with
        | none => .null
        | some s => s.toJson),
      ("using_scope", .optionalString scope),
      ("where_clause",
        match filter with
        | none => .null
        | some e => e.toJson),
      ("group_by", .array (groups.map ColumnRef.toJson)),
      ("having",
        match groupFilter with
        | none => .null
        | some e => e.toJson),
      ("order_by", .array (order.map OrderItem.toJson)),
      ("limit", .optionalString limit)]

end

/-- A query as a statement of its kind. -/
def Query.statementJson (q : Query) : Json := .tagged "Select" q.toJson

/-- A script as JSON. -/
def scriptJson (queries : List Query) : Json := .array (queries.map Query.statementJson)

end QueryCanon
