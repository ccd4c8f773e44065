/-
The clauses of a query.  How expressions are read is a parameter here: `sub level` reads
one whose outermost operators bind at least as tightly as `level`.
-/
import QueryCanon.Grammar.Reader
import QueryCanon.Query.Basic

namespace QueryCanon
namespace Grammar

open Reader

/-- How tightly the outermost operators of an expression bind, from the loosest. -/
inductive Level where
  | disjunction
  | conjunction
  | comparison
  | operand
deriving DecidableEq, Repr

def identifier? : Token → Option String
  | .identifier name => some name
  | _ => none

def integer? : Token → Option String
  | .integer text => some text
  | _ => none

def direction? : Token → Option Direction
  | .keyword .ASC => some .ascending
  | .keyword .DESC => some .descending
  | _ => none

def nullsPlace? : Token → Option NullsPlace
  | .keyword .FIRST => some .first
  | .keyword .LAST => some .last
  | _ => none

def identifier (wanted : Wanted) : Reader String := require identifier? wanted

def integer (wanted : Wanted) : Reader String := require integer? wanted

/-- A bare name behind what it names. -/
def label : Reader (Option String) := takeIf identifier?

/-- `name` or `qualifier.name`. -/
def qualified (wanted : Wanted) : Reader (Option String × String) := do
  let first ← identifier wanted
  if ← accept [.dot] then
    return (some first, ← identifier wanted)
  else
    return (none, first)

def columnRef : Reader ColumnRef := do
  let (qualifier, name) ← qualified .columnName
  return ⟨qualifier, name⟩

def tableRef : Reader TableRef := do
  let (qualifier, name) ← qualified .tableName
  return ⟨qualifier, name, ← label⟩

def selectItem (sub : Level → Reader Expr) : Reader SelectItem := do
  let expr ← if ← accept [.star] then pure .star else sub .disjunction
  return ⟨expr, ← label⟩

/-- The kind of an outer join, behind the word for its side. -/
def outerJoin (long short : JoinKind) : Reader JoinKind := do
  let kind := if ← accept [.keyword .OUTER] then long else short
  expectKeyword .JOIN
  return kind

/-- The kind of join that a token begins. -/
def joinKind : Token → Option (Reader JoinKind)
  | .comma => some (pure .cross)
  | .keyword .JOIN => some (pure .inner)
  | .keyword .INNER => some do
    expectKeyword .JOIN
    return .inner
  | .keyword .LEFT => some (outerJoin .leftOuter .left)
  | .keyword .RIGHT => some (outerJoin .rightOuter .right)
  | .keyword .FULL => some (outerJoin .fullOuter .full)
  | .keyword .CROSS => some do
    expectKeyword .JOIN
    return .cross
  | _ => none

def joinCondition (sub : Level → Reader Expr) : Reader JoinCondition := do
  if ← accept [.keyword .ON] then
    return .test (← sub .disjunction)
  else if ← accept [.keyword .USING] then
    return .columns (← inParens (commaList (identifier .columnName)))
  else
    fail (.expected .joinCondition)

/-- The condition that a join of this kind needs: a cross join has none. -/
def conditionOf (sub : Level → Reader Expr) : JoinKind → Reader (Option JoinCondition)
  | .cross => pure none
  | _ => do return some (← joinCondition sub)

/-- A further table, as what it does to the source before it. -/
def joined (sub : Level → Reader Expr) (t : Token) : Option (Reader (Source → Source)) :=
  (joinKind t).map fun kindReader => do
    let kind ← kindReader
    let right ← tableRef
    let condition ← conditionOf sub kind
    return fun left => .join left (.table right) kind condition

/-- Joins are taken from the left. -/
def source (sub : Level → Reader Expr) : Reader Source := do
  let first ← tableRef
  let joins ← repeated (joined sub)
  return joins.foldl (fun left join => join left) (.table first)

def orderTarget : Reader OrderTarget := do
  match ← takeIf integer? with
  | some text => return .ordinal text
  | none => return .column (← columnRef)

def orderItem : Reader OrderItem := do
  let target ← orderTarget
  let direction ← takeIf direction?
  let nulls ← introduced .NULLS (require nullsPlace? .nullsPlace)
  return ⟨target, direction, nulls⟩

/-- A list that `k` and `BY` introduce; without them it is empty. -/
def listBy (k : Keyword) (item : Reader α) : Reader (List α) := do
  if ← accept [.keyword k] then
    expectKeyword .BY
    commaList item
  else
    return []

/-- `USING` introduces the scope only together with `SCOPE`. -/
def scope : Reader (Option String) := do
  if ← accept [.keyword .USING, .keyword .SCOPE] then
    return some (← identifier .scopeName)
  else
    return none

/-- A query behind its `SELECT`. -/
def queryBody (sub : Level → Reader Expr) : Reader Query := do
  let items ← commaList (selectItem sub)
  let source ← introduced .FROM (source sub)
  let scope ← scope
  let filter ← introduced .WHERE (sub .disjunction)
  let groups ← listBy .GROUP columnRef
  let groupFilter ← introduced .HAVING (sub .disjunction)
  let order ← listBy .ORDER orderItem
  let limit ← introduced .LIMIT (integer .rowCount)
  return ⟨items, source, scope, filter, groups, groupFilter, order, limit⟩

def query (sub : Level → Reader Expr) : Reader Query := do
  expectKeyword .SELECT
  queryBody sub

end Grammar
end QueryCanon
