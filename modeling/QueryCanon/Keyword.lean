/-
The reserved words of the query language.  Each constructor is spelled as its word
is in canonical text.
-/
namespace QueryCanon

inductive Keyword where
  | SELECT | FROM | WHERE | GROUP | BY | HAVING | ORDER | LIMIT
  | JOIN | INNER | LEFT | RIGHT | FULL | OUTER | CROSS | ON | USING
  | AND | OR | NOT | IN | BETWEEN | LIKE | IS | NULL | EXISTS | TRUE | FALSE
  | ASC | DESC | NULLS | FIRST | LAST
  | SCOPE
deriving DecidableEq, Repr

namespace Keyword

def spelling : Keyword → String
  | SELECT => "SELECT"
  | FROM => "FROM"
  | WHERE => "WHERE"
  | GROUP => "GROUP"
  | BY => "BY"
  | HAVING => "HAVING"
  | ORDER => "ORDER"
  | LIMIT => "LIMIT"
  | JOIN => "JOIN"
  | INNER => "INNER"
  | LEFT => "LEFT"
  | RIGHT => "RIGHT"
  | FULL => "FULL"
  | OUTER => "OUTER"
  | CROSS => "CROSS"
  | ON => "ON"
  | USING => "USING"
  | AND => "AND"
  | OR => "OR"
  | NOT => "NOT"
  | IN => "IN"
  | BETWEEN => "BETWEEN"
  | LIKE => "LIKE"
  | IS => "IS"
  | NULL => "NULL"
  | EXISTS => "EXISTS"
  | TRUE => "TRUE"
  | FALSE => "FALSE"
  | ASC => "ASC"
  | DESC => "DESC"
  | NULLS => "NULLS"
  | FIRST => "FIRST"
  | LAST => "LAST"
  | SCOPE => "SCOPE"

def all : List Keyword :=
  [SELECT, FROM, WHERE, GROUP, BY, HAVING, ORDER, LIMIT, JOIN, INNER, LEFT, RIGHT, FULL,
   OUTER, CROSS, ON, USING, AND, OR, NOT, IN, BETWEEN, LIKE, IS, NULL, EXISTS, TRUE, FALSE,
   ASC, DESC, NULLS, FIRST, LAST, SCOPE]

theorem mem_all (k : Keyword) : k ∈ all := by cases k <;> decide

/-- The keyword that a word spells in any mix of upper and lower case.  Only the
letters of ASCII have a case here. -/
def ofWord? (word : List Char) : Option Keyword :=
  let folded := word.map Char.toUpper
  all.find? fun k => k.spelling.toList == folded

/-- What `ofWord?` finds is spelled by the word in upper case. -/
theorem spelling_of_ofWord? {word : List Char} {k : Keyword} (h : ofWord? word = some k) :
    k.spelling.toList = word.map Char.toUpper := by
  simpa using List.find?_some h

/-- A keyword's own spelling spells that keyword. -/
theorem ofWord?_spelling (k : Keyword) : ofWord? k.spelling.toList = some k := by
  cases k <;> decide +kernel

end Keyword
end QueryCanon
