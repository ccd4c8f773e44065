/-
What the grammar wants next where a text goes wrong.
-/
import QueryCanon.Token

namespace QueryCanon

/-- The construct that should stand where reading stopped. -/
inductive Wanted where
  | token (token : Token)
  | keyword (word : Keyword)
  | expression
  | columnName
  | tableName
  | scopeName
  | rowCount
  | ordinal
  | joinCondition
  | predicate
  | nullsPlace
  | endOfInput
  /-- the parenthesis that closes the one at the byte offset `opened` -/
  | closing (opened : Nat)
  | described (text : String)
deriving DecidableEq, Repr

namespace Wanted

def describe : Wanted → String
  | token t => t.describe
  | keyword k => k.spelling
  | expression => "expression"
  | columnName => "column name"
  | tableName => "table name"
  | scopeName => "scope name"
  | rowCount => "integer row count"
  | ordinal => "integer ordinal"
  | joinCondition => "ON or USING"
  | predicate => "IN, BETWEEN or LIKE"
  | nullsPlace => "FIRST or LAST"
  | endOfInput => "end of input"
  | closing opened => "')' to close '(' at position " ++ toString opened
  | described text => text

end Wanted
end QueryCanon
