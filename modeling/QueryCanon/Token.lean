/-
Tokens: the words of a query text.  The end of a text is no token of its own; where a
next token may be missing it is an `Option Token`.
-/
import QueryCanon.Keyword
import QueryCanon.Span

namespace QueryCanon

/-- Numbers and names keep the text of the source, strings the text between their
outer quotes. -/
inductive Token where
  | integer (text : String)
  | decimal (text : String)
  | string (body : String)
  | identifier (name : String)
  | keyword (word : Keyword)
  | star
  | eq
  | notEq
  | less
  | lessEq
  | greater
  | greaterEq
  | leftParen
  | rightParen
  | comma
  | dot
  | semicolon
deriving DecidableEq, Repr

namespace Token

/-- The token as messages name it. -/
def describe : Token → String
  | integer text => "number " ++ text
  | decimal text => "number " ++ text
  | string body => "string '" ++ body ++ "'"
  | identifier name => "identifier " ++ name
  | keyword word => "keyword " ++ word.spelling
  | star => "'*'"
  | eq => "'='"
  | notEq => "'<>'"
  | less => "'<'"
  | lessEq => "'<='"
  | greater => "'>'"
  | greaterEq => "'>='"
  | leftParen => "'('"
  | rightParen => "')'"
  | comma => "','"
  | dot => "'.'"
  | semicolon => "';'"

/-- What stands next, a token or the end of the text. -/
def describe? : Option Token → String
  | some t => t.describe
  | none => "end of input"

/-- The token as canonical text writes it.  Keywords are in upper case, but for the
two truth values. -/
def spelling : Token → String
  | integer text => text
  | decimal text => text
  | string body => "'" ++ body ++ "'"
  | identifier name => name
  | keyword .TRUE => "true"
  | keyword .FALSE => "false"
  | keyword word => word.spelling
  | star => "*"
  | eq => "="
  | notEq => "<>"
  | less => "<"
  | lessEq => "<="
  | greater => ">"
  | greaterEq => ">="
  | leftParen => "("
  | rightParen => ")"
  | comma => ","
  | dot => "."
  | semicolon => ";"

end Token

/-- A token and where it stands. -/
structure Placed where
  token : Token
  span : Span
deriving DecidableEq, Repr

end QueryCanon
