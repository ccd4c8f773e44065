/-
Layout: how canonical text spaces its tokens.

One space stands between two tokens, except around the punctuation that leans on its
neighbours.  Canonical text is written part by part, without this rule, but every part of it
follows it.
-/
import QueryCanon.Token

namespace QueryCanon
namespace Layout

/-- Whether a space stands between two neighbours.  An opening parenthesis leans on
what it encloses and, in a call, on the name before it; a point leans on both sides. -/
def spaced : Token → Token → Bool
  | .leftParen, _ => false
  | .dot, _ => false
  | _, .rightParen => false
  | _, .comma => false
  | _, .dot => false
  | .identifier _, .leftParen => false
  | _, _ => true

/-- The characters between two neighbours. -/
def space (before after : Token) : List Char :=
  if spaced before after then [' '] else []

/-- The characters of a text in canonical layout. -/
def chars : List Token → List Char
  | [] => []
  | [t] => t.spelling.toList
  | t :: u :: more => t.spelling.toList ++ space t u ++ chars (u :: more)

def text (tokens : List Token) : String := String.ofList (chars tokens)

theorem chars_cons_cons (t u : Token) (more : List Token) :
    chars (t :: u :: more) = t.spelling.toList ++ space t u ++ chars (u :: more) := rfl

end Layout
end QueryCanon
