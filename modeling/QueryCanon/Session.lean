/-
A parser that is called any number of times.

It keeps all tokens of the text and goes along them with a cursor, which counts the tokens
behind it and the nested expressions that are being read.  Reading is the grammar without a
limit, walked by that cursor, which alone keeps to the limit.  After an error the next call goes
on where the last one stopped.
-/
import QueryCanon.Grammar.Uncapped
import QueryCanon.Parser

namespace QueryCanon

open Grammar (Cursor PlacedFault Reader uncapped)

/-- A failure of a walk along the tokens of `p`, as an error of the text. -/
def Parser.report (limit : Nat) (p : Parser) (e : PlacedFault) : SyntaxError :=
  match e.fault with
  | .expected wanted => ⟨.unexpected wanted (p.tokenAt? e.index), p.spanAt e.index⟩
  | .unclosed opened =>
    let paren := p.spanAt (p.tokens.length - opened)
    ⟨.unexpected (.closing paren.start) (p.tokenAt? e.index), paren.merge (p.spanAt e.index)⟩
  | .tooDeep => ⟨.tooDeep limit, p.spanAt e.index⟩

/-- All tokens of a text, and a place among them. -/
structure Session where
  source : Parser
  cursor : Cursor

namespace Session

/-- At the first token. -/
def begin (p : Parser) : Session := ⟨p, .start⟩

/-- What is left. -/
def rest (s : Session) : Parser :=
  { s.source with tokens := s.source.tokens.drop s.cursor.index }

def run (limit : Nat) (r : Reader α) (s : Session) : Except SyntaxError α × Session :=
  let (result, after) := r.walk limit s.source.kinds s.cursor
  (result.mapError (s.source.report limit), { s with cursor := after })

/-- Reads one query; what follows it stays unread. -/
def statement (limit : Nat) (s : Session) : Except SyntaxError Query × Session :=
  s.run limit (uncapped Grammar.statement)

/-- Reads an expression that must be all that is left. -/
def wholeExpression (limit : Nat) (s : Session) : Except SyntaxError Expr × Session :=
  s.run limit (uncapped Grammar.wholeExpression)

/-- Whether nothing is left. -/
def isAtEnd (s : Session) : Bool := (s.source.tokenAt? s.cursor.index).isNone

/-- Takes a semicolon if one comes next, and says whether it did. -/
def semicolon (s : Session) : Bool × Session :=
  if s.source.tokenAt? s.cursor.index = some .semicolon then
    (true, { s with cursor := s.cursor.forward 1 })
  else
    (false, s)

/-- Requires that nothing is left. -/
def endOfInput (s : Session) : Except SyntaxError Unit :=
  if s.isAtEnd then
    .ok ()
  else
    .error ⟨.unexpected .endOfInput (s.source.tokenAt? s.cursor.index),
      s.source.spanAt s.cursor.index⟩

end Session

/-- What a parser can be asked to do. -/
inductive Call where
  | statement
  | wholeExpression
  | semicolon
  | isAtEnd
  | endOfInput
deriving DecidableEq, Repr

/-- What it answers. -/
inductive Answer where
  | statement (result : Except SyntaxError Query)
  | wholeExpression (result : Except SyntaxError Expr)
  | semicolon (taken : Bool)
  | isAtEnd (value : Bool)
  | endOfInput (result : Except SyntaxError Unit)

namespace Session

def call (limit : Nat) (s : Session) : Call → Answer × Session
  | .statement =>
    let (result, after) := s.statement limit
    (.statement result, after)
  | .wholeExpression =>
    let (result, after) := s.wholeExpression limit
    (.wholeExpression result, after)
  | .semicolon =>
    let (taken, after) := s.semicolon
    (.semicolon taken, after)
  | .isAtEnd => (.isAtEnd s.isAtEnd, s)
  | .endOfInput => (.endOfInput s.endOfInput, s)

/-- After some calls, one after another. -/
def after (limit : Nat) (s : Session) (calls : List Call) : Session :=
  calls.foldl (fun s c => (s.call limit c).2) s

end Session
end QueryCanon
