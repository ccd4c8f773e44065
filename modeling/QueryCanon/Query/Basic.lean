/-
Queries as trees.

Literals and names keep the text of the source.  Parentheses that the source wrote are
nodes of their own (`Expr.paren`); a negation that a predicate can carry stands in the
predicate and not in a node above it (`Expr.negate`).
-/
namespace QueryCanon

/-- A literal keeps the text of the source, a string without its outer quotes. -/
inductive Literal where
  | number (text : String)
  | string (body : String)
  | boolean (value : Bool)
deriving DecidableEq, Repr

inductive Comparison where
  | eq | notEq | less | lessEq | greater | greaterEq
deriving DecidableEq, Repr

/-- A column, as `name` or `qualifier.name`. -/
structure ColumnRef where
  qualifier : Option String
  name : String
deriving DecidableEq, Repr

/-- A table, as `name` or `qualifier.name`, with the label the query gives it. -/
structure TableRef where
  qualifier : Option String
  name : String
  label : Option String
deriving DecidableEq, Repr

/-- The kinds of join.  The forms with and without `OUTER` are told apart, so that a
query keeps the form it was written in. -/
inductive JoinKind where
  | inner | leftOuter | left | rightOuter | right | fullOuter | full | cross
deriving DecidableEq, Repr

inductive Direction where
  | ascending | descending
deriving DecidableEq, Repr

/-- Where rows without a value are sorted. -/
inductive NullsPlace where
  | first | last
deriving DecidableEq, Repr

/-- What an order is taken by: the number of a selected item, or a column. -/
inductive OrderTarget where
  | ordinal (text : String)
  | column (column : ColumnRef)
deriving DecidableEq, Repr

/-- One entry of `ORDER BY`, with the parts that were written. -/
structure OrderItem where
  target : OrderTarget
  direction : Option Direction
  nulls : Option NullsPlace
deriving DecidableEq, Repr

mutual

inductive Expr where
  /-- `*`, as a selected item or as the one argument of a call -/
  | star
  | column (column : ColumnRef)
  | literal (value : Literal)
  | call (name : String) (args : List Expr)
  | subquery (query : Query)
  | and (left right : Expr)
  | or (left right : Expr)
  | not (operand : Expr)
  | paren (inner : Expr)
  | compare (left : Expr) (op : Comparison) (right : Expr)
  | between (operand low high : Expr) (negated : Bool)
  | inList (operand : Expr) (list : List Expr) (negated : Bool)
  | inQuery (operand : Expr) (query : Query) (negated : Bool)
  | like (operand pattern : Expr) (negated : Bool)
  | isNull (operand : Expr) (negated : Bool)
  /-- `EXISTS`: whether the query has any row -/
  | hasRows (query : Query) (negated : Bool)

structure SelectItem where
  expr : Expr
  label : Option String

/-- What joins two sources: a test, or the columns they share. -/
inductive JoinCondition where
  | test (test : Expr)
  | columns (names : List String)

/-- What a query selects from. -/
inductive Source where
  | table (table : TableRef)
  | join (left right : Source) (kind : JoinKind) (condition : Option JoinCondition)

structure Query where
  items : List SelectItem
  source : Option Source
  scope : Option String
  filter : Option Expr
  groups : List ColumnRef
  groupFilter : Option Expr
  order : List OrderItem
  limit : Option String

end

namespace Expr

/-- An `AND` or an `OR`. -/
def isConnective : Expr → Bool
  | and .. => true
  | or .. => true
  | _ => false

/-- Under an `AND`, an `OR` needs parentheses. -/
def looserThanAnd : Expr → Bool
  | or .. => true
  | _ => false

/-- On the left of a comparison or predicate, what binds less tightly needs parentheses. -/
def looserThanComparison : Expr → Bool
  | and .. => true
  | or .. => true
  | not .. => true
  | _ => false

/-- On the right of a comparison, as a bound of `BETWEEN` and as a `LIKE` pattern, every
comparison and predicate needs parentheses, but for `EXISTS`. -/
def looserThanOperand : Expr → Bool
  | and .. => true
  | or .. => true
  | not .. => true
  | compare .. => true
  | between .. => true
  | inList .. => true
  | inQuery .. => true
  | like .. => true
  | isNull .. => true
  | _ => false

/-- A predicate that carries its own negation. -/
def isNegated : Expr → Bool
  | compare _ op _ => op == .notEq
  | between _ _ _ negated => negated
  | inList _ _ negated => negated
  | inQuery _ _ negated => negated
  | like _ _ negated => negated
  | isNull _ negated => negated
  | hasRows _ negated => negated
  | _ => false

/-- The negation of an operand.  An equality and a plain `BETWEEN`, `IN` or `LIKE` take
the negation up; over anything else it stands as a node of its own. -/
def negate : Expr → Expr
  | compare left .eq right => compare left .notEq right
  | between operand low high false => between operand low high true
  | inList operand list false => inList operand list true
  | inQuery operand query false => inQuery operand query true
  | like operand pattern false => like operand pattern true
  | e => not e

end Expr

namespace Query

/-- A query that selects `items` and has no other clause. -/
def ofItems (items : List SelectItem) : Query :=
  ⟨items, none, none, none, [], none, [], none⟩

/-- A query that selects `e`, without a label, and has no other clause. -/
def ofExpr (e : Expr) : Query := ofItems [⟨e, none⟩]

end Query
end QueryCanon
