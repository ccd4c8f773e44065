/-
Expressions.

An expression is an operand and the tails that follow it: an operator with its right
side, or a predicate.  A tail is read only if it binds at least as tightly as the
expression may at its level.  `NOT` before an operand takes everything that binds as
tightly as a comparison, and the operand takes the negation up if it can.

An expression inside another counts one level of nesting, and no more than a given
number of levels is read.
-/
import QueryCanon.Grammar.Clause

namespace QueryCanon
namespace Grammar

open Reader

def comparison? : Token → Option Comparison
  | .eq => some .eq
  | .notEq => some .notEq
  | .less => some .less
  | .lessEq => some .lessEq
  | .greater => some .greater
  | .greaterEq => some .greaterEq
  | _ => none

/-- What stands between the parentheses of `IN`. -/
def inTail (sub : Level → Reader Expr) (negated : Bool) : Reader (Expr → Expr) :=
  inParens do
    if ← accept [.keyword .SELECT] then
      let query ← queryBody sub
      return fun left => .inQuery left query negated
    else
      let list ← commaList (sub .disjunction)
      return fun left => .inList left list negated

def betweenTail (sub : Level → Reader Expr) (negated : Bool) : Reader (Expr → Expr) := do
  let low ← sub .operand
  expectKeyword .AND
  let high ← sub .operand
  return fun left => .between left low high negated

def likeTail (sub : Level → Reader Expr) (negated : Bool) : Reader (Expr → Expr) := do
  let pattern ← sub .operand
  return fun left => .like left pattern negated

/-- The predicates that `NOT` may stand before. -/
def predicateTail (sub : Level → Reader Expr) (negated : Bool) :
    Token → Option (Reader (Expr → Expr))
  | .keyword .IN => some (inTail sub negated)
  | .keyword .BETWEEN => some (betweenTail sub negated)
  | .keyword .LIKE => some (likeTail sub negated)
  | _ => none

def compareTail (sub : Level → Reader Expr) (op : Comparison) : Reader (Expr → Expr) := do
  let right ← sub .operand
  return fun left => .compare left op right

def nullTail : Reader (Expr → Expr) := do
  let negated ← accept [.keyword .NOT]
  expectKeyword .NULL
  return fun left => .isNull left negated

/-- Comparisons and predicates. -/
def comparisonTail (sub : Level → Reader Expr) (t : Token) : Option (Reader (Expr → Expr)) :=
  match t with
  | .keyword .IS => some nullTail
  | .keyword .NOT => some (dispatch (predicateTail sub true) .predicate)
  | t =>
    match comparison? t with
    | some op => some (compareTail sub op)
    | none => predicateTail sub false t

def andTail (sub : Level → Reader Expr) : Token → Option (Reader (Expr → Expr))
  | .keyword .AND => some do
    let right ← sub .comparison
    return fun left => .and left right
  | _ => none

def orTail (sub : Level → Reader Expr) : Token → Option (Reader (Expr → Expr))
  | .keyword .OR => some do
    let right ← sub .conjunction
    return fun left => .or left right
  | _ => none

/-- The tail that a token begins in an expression of the given level. -/
def tail (sub : Level → Reader Expr) : Level → Token → Option (Reader (Expr → Expr))
  | .operand, _ => none
  | .comparison, t => comparisonTail sub t
  | .conjunction, t => (andTail sub t).or (comparisonTail sub t)
  | .disjunction, t => (orTail sub t).or ((andTail sub t).or (comparisonTail sub t))

/-- `EXISTS`, behind that word. -/
def rowTest (sub : Level → Reader Expr) (negated : Bool) : Reader Expr := do
  let query ← inParens (query sub)
  return .hasRows query negated

/-- `NOT`, behind that word. -/
def negation (sub : Level → Reader Expr) : Reader Expr := do
  if ← accept [.keyword .EXISTS] then
    rowTest sub true
  else
    return (← sub .comparison).negate

/-- A parenthesis, behind its opening. -/
def parenthesis (sub : Level → Reader Expr) : Reader Expr :=
  enclosed do
    if ← accept [.keyword .SELECT] then
      return .subquery (← queryBody sub)
    else
      return .paren (← sub .disjunction)

/-- The arguments of a call, behind the opening parenthesis.  A star stands alone. -/
def arguments (sub : Level → Reader Expr) : Reader (List Expr) := do
  if ← accept [.rightParen] then
    return []
  else
    enclosed do
      if ← accept [.star] then
        return [.star]
      else
        commaList (sub .disjunction)

/-- A call or a column, behind its first name. -/
def named (sub : Level → Reader Expr) (name : String) : Reader Expr := do
  if ← accept [.leftParen] then
    return .call name (← arguments sub)
  else if ← accept [.dot] then
    return .column ⟨some name, ← identifier .columnName⟩
  else
    return .column ⟨none, name⟩

/-- The operand that a token begins. -/
def operand (sub : Level → Reader Expr) : Token → Option (Reader Expr)
  | .integer text => some (pure (.literal (.number text)))
  | .decimal text => some (pure (.literal (.number text)))
  | .string body => some (pure (.literal (.string body)))
  | .keyword .TRUE => some (pure (.literal (.boolean true)))
  | .keyword .FALSE => some (pure (.literal (.boolean false)))
  | .keyword .NOT => some (negation sub)
  | .keyword .EXISTS => some (rowTest sub false)
  | .leftParen => some (parenthesis sub)
  | .identifier name => some (named sub name)
  | _ => none

/-- An operand and its tails.  Tails are taken from the left. -/
def operandAndTails (sub : Level → Reader Expr) (level : Level) : Reader Expr := do
  let first ← dispatch (operand sub) .expression
  let tails ← repeated (tail sub level)
  return tails.foldl (fun left tail => tail left) first

/-- An expression that nests at most `depth` levels. -/
def expression : Nat → Level → Reader Expr
  | 0, _ => fail .tooDeep
  | depth + 1, level => nested (operandAndTails (expression depth) level)

end Grammar
end QueryCanon
