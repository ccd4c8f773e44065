/-
Whole texts: an expression, a statement, and a script of statements.  `depth` bounds the
nesting of expressions throughout.
-/
import QueryCanon.Grammar.Expression

namespace QueryCanon
namespace Grammar

open Reader

/-- A query, whatever follows it. -/
def statement (depth : Nat) : Reader Query := query (expression depth)

/-- An expression and nothing else. -/
def wholeExpression (depth : Nat) : Reader Expr := do
  let e ← expression depth .disjunction
  endOfInput
  return e

/-- One query, closed or not by a semicolon, and nothing else. -/
def wholeStatement (depth : Nat) : Reader Query := do
  let q ← statement depth
  let _ ← accept [.semicolon]
  endOfInput
  return q

/-- What may stand before, between and after the semicolons of a script: a query, or
nothing. -/
def slot (depth : Nat) : Reader (Option Query) :=
  introduced .SELECT (queryBody (expression depth))

/-- What was missing where a script goes on although nothing of it can be read.  Behind a
query only its end can follow; in an empty place a query might have. -/
def missing (slots : List (Option Query)) : Wanted :=
  match slots.getLast? with
  | some (some _) => .endOfInput
  | _ => .keyword .SELECT

/-- The queries of a script.  Empty places between semicolons count for nothing. -/
def script (depth : Nat) : Reader (List Query) := do
  let first ← slot depth
  let more ← repeated fun t => if t = .semicolon then some (slot depth) else none
  let slots := first :: more
  unless ← atEnd do
    fail (.expected (missing slots))
  return slots.filterMap id

end Grammar
end QueryCanon
