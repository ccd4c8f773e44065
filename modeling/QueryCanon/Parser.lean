/-
The parser: a place in the tokens of a text, from which statements and expressions are
read one after another.

Every reading starts from the tokens that are left and depends on nothing else.  After
an error the parser stands at the token where reading stopped.
-/
import QueryCanon.Grammar.Script
import QueryCanon.ParseError

namespace QueryCanon

open Grammar (Fault Reader)

/-- Expressions may nest as deep as this. -/
def nestingLimit : Nat := 100

/-- The tokens left of a text of `length` bytes. -/
structure Parser where
  tokens : List Placed
  length : Nat

namespace Parser

/-- The parser before a text that makes tokens. -/
def ofText (text : String) : Except LexError Parser :=
  match (Lexer.ofText text).tokenize with
  | (.ok tokens, after) => .ok ⟨tokens, after.pos⟩
  | (.error e, _) => .error e

/-- The tokens left, without their places. -/
def kinds (p : Parser) : List Token := p.tokens.map (·.token)

/-- The token that `index` tokens stand before, if the text does not end there. -/
def tokenAt? (p : Parser) (index : Nat) : Option Token := p.kinds[index]?

/-- Where that token stands, or the end of the text. -/
def spanAt (p : Parser) (index : Nat) : Span :=
  match p.tokens[index]? with
  | none => .point p.length
  | some t => t.span

/-- The next token. -/
def next? (p : Parser) : Option Token := p.tokens.head?.map (·.token)

/-- Where the next token stands; the end of the text if none is left. -/
def span (p : Parser) : Span :=
  match p.tokens with
  | [] => .point p.length
  | t :: _ => t.span

/-- The place further on at which `left` tokens are left. -/
def skipTo (p : Parser) (left : Nat) : Parser :=
  { p with tokens := p.tokens.drop (p.tokens.length - left) }

/-- A fault met on reading from `p` up to `stop`, as an error of the text. -/
def locate (limit : Nat) (p stop : Parser) : Fault → SyntaxError
  | .expected wanted => ⟨.unexpected wanted stop.next?, stop.span⟩
  | .unclosed opened =>
    let paren := (p.skipTo opened).span
    ⟨.unexpected (.closing paren.start) stop.next?, paren.merge stop.span⟩
  | .tooDeep => ⟨.tooDeep limit, stop.span⟩

/-- Reads with `r`, whose nesting `limit` bounds. -/
def run (limit : Nat) (r : Reader α) (p : Parser) : Except SyntaxError α × Parser :=
  match r.read (p.tokens.map (·.token)) with
  | .done a rest => (.ok a, p.skipTo rest.length)
  | .failed fault rest =>
    let stop := p.skipTo rest.length
    (.error (p.locate limit stop fault), stop)

theorem run_done {limit : Nat} {r : Reader α} {p : Parser} {a : α} {rest : List Token}
    (h : r.read p.kinds = .done a rest) : p.run limit r = (.ok a, p.skipTo rest.length) := by
  rw [kinds] at h
  rw [run, h]

theorem run_failed {limit : Nat} {r : Reader α} {p : Parser} {fault : Fault} {rest : List Token}
    (h : r.read p.kinds = .failed fault rest) :
    p.run limit r =
      (.error (p.locate limit (p.skipTo rest.length) fault), p.skipTo rest.length) := by
  rw [kinds] at h
  rw [run, h]

/-- Reads one query; what follows it stays unread. -/
def statement (limit : Nat) (p : Parser) : Except SyntaxError Query × Parser :=
  p.run limit (Grammar.statement limit)

/-- Reads an expression that must be all that is left. -/
def wholeExpression (limit : Nat) (p : Parser) : Except SyntaxError Expr × Parser :=
  p.run limit (Grammar.wholeExpression limit)

/-- Whether nothing is left. -/
def isAtEnd (p : Parser) : Bool := p.tokens.isEmpty

/-- Takes a semicolon if one comes next, and says whether it did. -/
def semicolon (p : Parser) : Bool × Parser :=
  if p.next? = some .semicolon then (true, { p with tokens := p.tokens.tail }) else (false, p)

/-- Requires that nothing is left. -/
def endOfInput (p : Parser) : Except SyntaxError Unit :=
  if p.isAtEnd then .ok () else .error ⟨.unexpected .endOfInput p.next?, p.span⟩

end Parser
end QueryCanon
