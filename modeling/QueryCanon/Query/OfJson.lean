/-
Queries out of JSON.

What a query is written as is read back: `Query.ofJson?` undoes `Query.toJson`, and so
for every part of a query.  Fields are found by their names and may stand in any order.
-/
import QueryCanon.Json.Basic
import QueryCanon.Query.Basic

namespace QueryCanon
namespace Json

/-- The value of the first field named `key`, which is smaller than the fields. -/
def field? (key : String) : (fields : List (String × Json)) →
    Option { j : Json // sizeOf j < sizeOf fields }
  | [] => none
  | (k, j) :: more =>
    if k = key then some ⟨j, by simp; omega⟩
    else (field? key more).map fun ⟨i, hi⟩ => ⟨i, by simp; omega⟩

def bool? : Json → Option Bool
  | .bool b => some b
  | _ => none

def string? : Json → Option String
  | .string s => some s
  | _ => none

def strings? : List Json → Option (List String)
  | [] => some []
  | j :: js => do return (← j.string?) :: (← strings? js)

/-- The elements of an array. -/
def array? : Json → Option (List Json)
  | .array items => some items
  | _ => none

/-- A string, or nothing for `null`. -/
def optionalString? : Json → Option (Option String)
  | .null => some none
  | .string s => some (some s)
  | _ => none

/-- The field named `key`, if it is a string. -/
def stringField? (fields : List (String × Json)) (key : String) : Option String := do
  (← field? key fields).1.string?

/-- The field named `key`, if it is a string or `null`. -/
def optionalStringField? (fields : List (String × Json)) (key : String) :
    Option (Option String) := do
  (← field? key fields).1.optionalString?

/-- The field named `key`, if it is a truth value. -/
def boolField? (fields : List (String × Json)) (key : String) : Option Bool := do
  (← field? key fields).1.bool?

/-- The field named `key`, if it is an array, with each element read by `read`. -/
def listField? (read : Json → Option α) (fields : List (String × Json)) (key : String) :
    Option (List α) := do
  (← (← field? key fields).1.array?).mapM read

end Json

open Json (field? stringField? optionalStringField? boolField? listField?)

def Literal.ofJson? : Json → Option Literal
  | .object [("Number", .string text)] => some (.number text)
  | .object [("String", .string body)] => some (.string body)
  | .object [("Boolean", .bool value)] => some (.boolean value)
  | _ => none

def Comparison.ofName? : String → Option Comparison
  | "Eq" => some .eq
  | "NotEq" => some .notEq
  | "Lt" => some .less
  | "LtEq" => some .lessEq
  | "Gt" => some .greater
  | "GtEq" => some .greaterEq
  | _ => none

def JoinKind.ofName? : String → Option JoinKind
  | "Inner" => some .inner
  | "LeftOuter" => some .leftOuter
  | "Left" => some .left
  | "RightOuter" => some .rightOuter
  | "Right" => some .right
  | "FullOuter" => some .fullOuter
  | "Full" => some .full
  | "Cross" => some .cross
  | _ => none

def Direction.ofName? : String → Option Direction
  | "Asc" => some .ascending
  | "Desc" => some .descending
  | _ => none

def NullsPlace.ofName? : String → Option NullsPlace
  | "First" => some .first
  | "Last" => some .last
  | _ => none

def ColumnRef.ofJson? : Json → Option ColumnRef
  | .object fields => do
    return ⟨← optionalStringField? fields "qualifier", ← stringField? fields "name"⟩
  | _ => none

def TableRef.ofJson? : Json → Option TableRef
  | .object fields => do
    return ⟨← optionalStringField? fields "qualifier", ← stringField? fields "name",
      ← optionalStringField? fields "alias"⟩
  | _ => none

def OrderTarget.ofJson? : Json → Option OrderTarget
  | .object [("Ordinal", .string text)] => some (.ordinal text)
  | .object [("Column", j)] => (ColumnRef.ofJson? j).map .column
  | _ => none

/-- A name, read by `read`, or nothing for `null`. -/
def optionalName? (read : String → Option α) : Option String → Option (Option α)
  | none => some none
  | some name => (read name).map some

def OrderItem.ofJson? : Json → Option OrderItem
  | .object fields => do
    return ⟨← OrderTarget.ofJson? (← field? "target" fields).1,
      ← optionalName? Direction.ofName? (← optionalStringField? fields "direction"),
      ← optionalName? NullsPlace.ofName? (← optionalStringField? fields "nulls")⟩
  | _ => none

mutual

def Expr.ofJson? : Json → Option Expr
  | .string "Star" => some .star
  | .object [("Column", j)] => (ColumnRef.ofJson? j).map .column
  | .object [("Literal", j)] => (Literal.ofJson? j).map .literal
  | .object [("Function", .object fields)] => do
    let name ← stringField? fields "name"
    let ⟨args, _⟩ ← field? "args" fields
    return .call name (← Expr.listOfJson? args)
  | .object [("Subquery", j)] => do return .subquery (← Query.ofJson? j)
  | .object [("And", .array [l, r])] => do return .and (← Expr.ofJson? l) (← Expr.ofJson? r)
  | .object [("Or", .array [l, r])] => do return .or (← Expr.ofJson? l) (← Expr.ofJson? r)
  | .object [("Not", j)] => do return .not (← Expr.ofJson? j)
  | .object [("Paren", j)] => do return .paren (← Expr.ofJson? j)
  | .object [("Compare", .object fields)] => do
    let ⟨l, _⟩ ← field? "left" fields
    let ⟨r, _⟩ ← field? "right" fields
    let op ← Comparison.ofName? (← stringField? fields "op")
    return .compare (← Expr.ofJson? l) op (← Expr.ofJson? r)
  | .object [("Between", .object fields)] => do
    let ⟨e, _⟩ ← field? "expr" fields
    let ⟨low, _⟩ ← field? "low" fields
    let ⟨high, _⟩ ← field? "high" fields
    return .between (← Expr.ofJson? e) (← Expr.ofJson? low) (← Expr.ofJson? high)
      (← boolField? fields "negated")
  | .object [("InList", .object fields)] => do
    let ⟨e, _⟩ ← field? "expr" fields
    let ⟨list, _⟩ ← field? "list" fields
    return .inList (← Expr.ofJson? e) (← Expr.listOfJson? list) (← boolField? fields "negated")
  | .object [("InSubquery", .object fields)] => do
    let ⟨e, _⟩ ← field? "expr" fields
    let ⟨q, _⟩ ← field? "query" fields
    return .inQuery (← Expr.ofJson? e) (← Query.ofJson? q) (← boolField? fields "negated")
  | .object [("Like", .object fields)] => do
    let ⟨e, _⟩ ← field? "expr" fields
    let ⟨pattern, _⟩ ← field? "pattern" fields
    return .like (← Expr.ofJson? e) (← Expr.ofJson? pattern) (← boolField? fields "negated")
  | .object [("IsNull", .object fields)] => do
    let ⟨e, _⟩ ← field? "expr" fields
    return .isNull (← Expr.ofJson? e) (← boolField? fields "negated")
  | .object [("Exists", .object fields)] => do
    let ⟨q, _⟩ ← field? "query" fields
    return .hasRows (← Query.ofJson? q) (← boolField? fields "negated")
  | _ => none
termination_by j => sizeOf j

/-- The expressions of an array. -/
def Expr.listOfJson? : Json → Option (List Expr)
  | .array [] => some []
  | .array (j :: js) => do return (← Expr.ofJson? j) :: (← Expr.listOfJson? (.array js))
  | _ => none
termination_by j => sizeOf j

/-- An expression, or nothing for `null`. -/
def Expr.optionalOfJson? : Json → Option (Option Expr)
  | .null => some none
  | .string s => do return some (← Expr.ofJson? (.string s))
  | .object fields => do return some (← Expr.ofJson? (.object fields))
  | _ => none
termination_by j => sizeOf j + 1

def SelectItem.ofJson? : Json → Option SelectItem
  | .object fields => do
    let ⟨e, _⟩ ← field? "expr" fields
    return ⟨← Expr.ofJson? e, ← optionalStringField? fields "alias"⟩
  | _ => none
termination_by j => sizeOf j

/-- The items of an array. -/
def SelectItem.listOfJson? : Json → Option (List SelectItem)
  | .array [] => some []
  | .array (j :: js) => do
    return (← SelectItem.ofJson? j) :: (← SelectItem.listOfJson? (.array js))
  | _ => none
termination_by j => sizeOf j

def JoinCondition.ofJson? : Json → Option JoinCondition
  | .object [("On", j)] => do return .test (← Expr.ofJson? j)
  | .object [("Using", .array names)] => (Json.strings? names).map .columns
  | _ => none
termination_by j => sizeOf j

/-- A condition, or nothing for `null`. -/
def JoinCondition.optionalOfJson? : Json → Option (Option JoinCondition)
  | .null => some none
  | .object fields => do return some (← JoinCondition.ofJson? (.object fields))
  | _ => none
termination_by j => sizeOf j + 1

def Source.ofJson? : Json → Option Source
  | .object [("Table", j)] => (TableRef.ofJson? j).map .table
  | .object [("Join", .object fields)] => do
    let ⟨l, _⟩ ← field? "left" fields
    let ⟨r, _⟩ ← field? "right" fields
    let kind ← JoinKind.ofName? (← stringField? fields "join_type")
    let ⟨condition, _⟩ ← field? "condition" fields
    return .join (← Source.ofJson? l) (← Source.ofJson? r) kind
      (← JoinCondition.optionalOfJson? condition)
  | _ => none
termination_by j => sizeOf j

/-- A source, or nothing for `null`. -/
def Source.optionalOfJson? : Json → Option (Option Source)
  | .null => some none
  | .object fields => do return some (← Source.ofJson? (.object fields))
  | _ => none
termination_by j => sizeOf j + 1

def Query.ofJson? : Json → Option Query
  | .object fields => do
    let ⟨items, _⟩ ← field? "items" fields
    let ⟨source, _⟩ ← field? "from" fields
    let scope ← optionalStringField? fields "using_scope"
    let ⟨filter, _⟩ ← field? "where_clause" fields
    let groups ← listField? ColumnRef.ofJson? fields "group_by"
    let ⟨groupFilter, _⟩ ← field? "having" fields
    let order ← listField? OrderItem.ofJson? fields "order_by"
    let limit ← optionalStringField? fields "limit"
    return ⟨← SelectItem.listOfJson? items, ← Source.optionalOfJson? source, scope,
      ← Expr.optionalOfJson? filter, groups, ← Expr.optionalOfJson? groupFilter, order, limit⟩
  | _ => none
termination_by j => sizeOf j

end

/-- A statement, which is always a query. -/
def Query.ofStatementJson? : Json → Option Query
  | .object [("Select", j)] => Query.ofJson? j
  | _ => none

end QueryCanon
