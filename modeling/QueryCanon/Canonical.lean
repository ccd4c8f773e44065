/-
Reading texts, and their canonical form.

Each function has a form with a limit on nesting of its own, `…Within`; the plain form
takes `nestingLimit`.
-/
import QueryCanon.Parser
import QueryCanon.Query.Text
import QueryCanon.Unicode.Blank

namespace QueryCanon

open Grammar (Reader)

/-- Reads a whole text with `r`. -/
def readText (limit : Nat) (r : Reader α) (text : String) : Except ParseError α :=
  match Parser.ofText text with
  | .error e => .error (.lexical e)
  | .ok p =>
    match (p.run limit r).1 with
    | .error e => .error (.grammatical e)
    | .ok a => .ok a

def parseWithin (limit : Nat) (text : String) : Except ParseError Query :=
  readText limit (Grammar.wholeStatement limit) text

/-- The one query of a text.  A semicolon may close it. -/
def parse (text : String) : Except ParseError Query := parseWithin nestingLimit text

def parseExprWithin (limit : Nat) (text : String) : Except ParseError Expr :=
  readText limit (Grammar.wholeExpression limit) text

/-- The expression that is the whole text. -/
def parseExpr (text : String) : Except ParseError Expr := parseExprWithin nestingLimit text

def parseScriptWithin (limit : Nat) (text : String) : Except ParseError (List Query) :=
  readText limit (Grammar.script limit) text

/-- The queries of a text, with semicolons between them. -/
def parseScript (text : String) : Except ParseError (List Query) :=
  parseScriptWithin nestingLimit text

def canonicalizeWithin (limit : Nat) (text : String) : Except ParseError String :=
  (parseWithin limit text).map Query.text

/-- The canonical text of the one query of a text. -/
def canonicalize (text : String) : Except ParseError String := canonicalizeWithin nestingLimit text

theorem canonicalize_eq (text : String) : canonicalize text = (parse text).map Query.text := rfl

/-- A query on a line of its own, closed by `ending`. -/
def line (ending : String) (q : Query) : String := q.text ++ ending ++ "\n"

/-- A script of one query has it without a semicolon; in a longer one each query is
closed by one. -/
def render : List Query → String
  | [q] => line "" q
  | queries => String.join (queries.map (line ";"))

def formatWithin (limit : Nat) (text : String) : Except ParseError String :=
  (parseScriptWithin limit text).map render

/-- The canonical form of a script. -/
def format (text : String) : Except ParseError String := formatWithin nestingLimit text

theorem format_eq (text : String) : format text = (parseScript text).map render := rfl

/-- Whether two texts differ at most in the blanks at their ends. -/
def sameUpToTrailingBlanks (a b : String) : Bool := Unicode.trimEnd a == Unicode.trimEnd b

def isCanonicalWithin (limit : Nat) (text : String) : Except ParseError Bool :=
  (formatWithin limit text).map fun formatted => sameUpToTrailingBlanks formatted text

/-- Whether a script has its canonical form, up to blanks at its end. -/
def isCanonical (text : String) : Except ParseError Bool := isCanonicalWithin nestingLimit text

theorem isCanonical_eq (text : String) :
    isCanonical text = (format text).map fun formatted => sameUpToTrailingBlanks formatted text :=
  rfl

end QueryCanon
