/-
The canonical text of a query.

Keywords are in upper case, a single space stands between words, and names and literals are
written as they are kept.  Every part writes the text of its own parts and what stands between
these; a part that may be missing brings the space before it.  Parentheses beyond those of the
tree are written where the text would otherwise read back as another tree, and around an `AND`
or `OR` that is a whole `WHERE` or `HAVING` condition.
-/
import QueryCanon.Query.Basic

namespace QueryCanon

def Comparison.text : Comparison → String
  | eq => "="
  | notEq => "<>"
  | less => "<"
  | lessEq => "<="
  | greater => ">"
  | greaterEq => ">="

def Literal.text : Literal → String
  | number text => text
  | string body => "'" ++ body ++ "'"
  | boolean true => "true"
  | boolean false => "false"

/-- A name with its qualifier, if it has one. -/
def qualifiedText : Option String → String → String
  | none, name => name
  | some qualifier, name => qualifier ++ "." ++ name

/-- A name that may be missing, behind what it names. -/
def labelText : Option String → String
  | none => ""
  | some name => " " ++ name

def ColumnRef.text (c : ColumnRef) : String := qualifiedText c.qualifier c.name

def TableRef.text (t : TableRef) : String := qualifiedText t.qualifier t.name ++ labelText t.label

def JoinKind.text : JoinKind → String
  | inner => "INNER JOIN"
  | leftOuter => "LEFT OUTER JOIN"
  | left => "LEFT JOIN"
  | rightOuter => "RIGHT OUTER JOIN"
  | right => "RIGHT JOIN"
  | fullOuter => "FULL OUTER JOIN"
  | full => "FULL JOIN"
  | cross => "CROSS JOIN"

def Direction.text : Direction → String
  | ascending => "ASC"
  | descending => "DESC"

def NullsPlace.text : NullsPlace → String
  | first => "NULLS FIRST"
  | last => "NULLS LAST"

def OrderTarget.text : OrderTarget → String
  | ordinal text => text
  | column c => c.text

def OrderItem.text (item : OrderItem) : String :=
  item.target.text ++
    (match item.direction with
      | none => ""
      | some d => " " ++ d.text) ++
    (match item.nulls with
      | none => ""
      | some p => " " ++ p.text)

/-- Parts with a comma and a space between each two. -/
def listText (parts : List String) : String := ", ".intercalate parts

/-- Parentheses around `text`. -/
def parenthesize (text : String) : String := "(" ++ text ++ ")"

/-- Parentheses around `text` where they are needed. -/
def parenthesizeIf (needed : Bool) (text : String) : String :=
  if needed then parenthesize text else text

/-- The `NOT` of a negated predicate, behind what the predicate is about. -/
def notText (negated : Bool) : String := if negated then " NOT" else ""

mutual

def Expr.text : Expr → String
  | .star => "*"
  | .column c => c.text
  | .literal l => l.text
  | .call name args => name ++ parenthesize (listText (Expr.eachText args))
  | .subquery q => parenthesize q.text
  | .and l r =>
    parenthesizeIf l.looserThanAnd l.text ++ " AND " ++ parenthesizeIf r.looserThanAnd r.text
  | .or l r => l.text ++ " OR " ++ r.text
  | .not e => "NOT " ++ parenthesizeIf e.isConnective e.text
  | .paren e => parenthesize e.text
  | .compare l op r =>
    parenthesizeIf l.looserThanComparison l.text ++ (" " ++ op.text ++ " ") ++
      parenthesizeIf r.looserThanOperand r.text
  | .between e low high negated =>
    parenthesizeIf e.looserThanComparison e.text ++ notText negated ++ " BETWEEN " ++
      parenthesizeIf low.looserThanOperand low.text ++ " AND " ++
        parenthesizeIf high.looserThanOperand high.text
  | .inList e list negated =>
    parenthesizeIf e.looserThanComparison e.text ++ notText negated ++ " IN " ++
      parenthesize (listText (Expr.eachText list))
  | .inQuery e q negated =>
    parenthesizeIf e.looserThanComparison e.text ++ notText negated ++ " IN " ++
      parenthesize q.text
  | .like e pattern negated =>
    parenthesizeIf e.looserThanComparison e.text ++ notText negated ++ " LIKE " ++
      parenthesizeIf pattern.looserThanOperand pattern.text
  | .isNull e negated =>
    parenthesizeIf e.looserThanComparison e.text ++
      if negated then " IS NOT NULL" else " IS NULL"
  | .hasRows q negated => (if negated then "NOT EXISTS " else "EXISTS ") ++ parenthesize q.text

/-- The text of each expression. -/
def Expr.eachText : List Expr → List String
  | [] => []
  | e :: es => e.text :: Expr.eachText es

def SelectItem.text : SelectItem → String
  | ⟨e, label⟩ => e.text ++ labelText label

/-- The text of each item. -/
def SelectItem.eachText : List SelectItem → List String
  | [] => []
  | item :: items => item.text :: SelectItem.eachText items

def JoinCondition.text : JoinCondition → String
  | .test e => "ON " ++ e.text
  | .columns names => "USING " ++ parenthesize (listText names)

def Source.text : Source → String
  | .table t => t.text
  | .join l r kind none => l.text ++ (" " ++ kind.text ++ " ") ++ r.text
  | .join l r kind (some c) =>
    l.text ++ (" " ++ kind.text ++ " ") ++ r.text ++ (" " ++ c.text)

def Query.text : Query → String
  | ⟨items, source, scope, filter, groups, groupFilter, order, limit⟩ =>
    "SELECT " ++ listText (SelectItem.eachText items) ++
      (match source with
        | none => ""
        | some s => " FROM " ++ s.text) ++
      (match scope with
        | none => ""
        | some name => " USING SCOPE " ++ name) ++
      (match filter with
        | none => ""
        | some e => " WHERE " ++ parenthesizeIf e.isConnective e.text) ++
      (match groups with
        | [] => ""
        | columns => " GROUP BY " ++ listText (columns.map (·.text))) ++
      (match groupFilter with
        | none => ""
        | some e => " HAVING " ++ parenthesizeIf e.isConnective e.text) ++
      (match order with
        | [] => ""
        | entries => " ORDER BY " ++ listText (entries.map (·.text))) ++
      (match limit with
        | none => ""
        | some text => " LIMIT " ++ text)

end

end QueryCanon
