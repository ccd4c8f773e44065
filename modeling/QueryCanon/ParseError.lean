/-
What is said of a text that is no query.
-/
import QueryCanon.Grammar.Wanted
import QueryCanon.Lexical.Lexer

namespace QueryCanon

/-- What is wrong with a list of tokens. -/
inductive Problem where
  /-- `wanted` should stand where `found` stands; nothing is found at the end of a text -/
  | unexpected (wanted : Wanted) (found : Option Token)
  | tooDeep (limit : Nat)
  | other (message : String)
deriving DecidableEq, Repr

namespace Problem

def message : Problem → String
  | unexpected wanted none => "Unexpected end of input: expected " ++ wanted.describe
  | unexpected wanted (some found) =>
    "Unexpected token: expected " ++ wanted.describe ++ ", found " ++ found.describe
  | tooDeep limit => "Expression nesting exceeds maximum depth of " ++ toString limit
  | other message => message

/-- What was wanted, if the problem is an unexpected token. -/
def wanted? : Problem → Option Wanted
  | unexpected wanted _ => some wanted
  | _ => none

/-- What was found, a token or the end of the text, if the problem is that it stands
there. -/
def found? : Problem → Option (Option Token)
  | unexpected _ found => some found
  | _ => none

/-- Whether the text ended too early. -/
def isEnd (p : Problem) : Bool := p.found? == some none

end Problem

/-- A list of tokens that no rule of the grammar covers. -/
structure SyntaxError where
  problem : Problem
  span : Span
deriving DecidableEq, Repr

namespace SyntaxError

def message (e : SyntaxError) : String :=
  e.problem.message ++ " at position " ++ e.span.describe

end SyntaxError

/-- Why a text could not be read: its characters make no tokens, or its tokens make no
query.  The first error ends the reading. -/
inductive ParseError where
  | lexical (error : LexError)
  | grammatical (error : SyntaxError)
deriving DecidableEq, Repr

namespace ParseError

def message : ParseError → String
  | lexical e => "Lexical error: " ++ e.message
  | grammatical e => "Syntax error: " ++ e.message

/-- The message of the error that this one is about. -/
def cause : ParseError → String
  | lexical e => e.message
  | grammatical e => e.message

def span : ParseError → Span
  | lexical e => e.span
  | grammatical e => e.span

end ParseError
end QueryCanon
