/-
Processing one input.

In every mode the input is read and parsed first, and if that fails nothing is written.
Only `Mode.inPlace` writes to a file, to the one it has read, and only if its canonical
form is another.
-/
import QueryCanon.Canonical
import QueryCanon.Command.Event
import QueryCanon.Files.Basic
import QueryCanon.Query.ToJson

namespace QueryCanon

/-- Where a text comes from. -/
inductive Input where
  | stdin
  | file (name : String)
deriving DecidableEq, Repr

namespace Input

def name : Input → String
  | stdin => "<stdin>"
  | file name => name

end Input

/-- What is done with a text: its canonical form is printed, only compared, printed as
a tree, or put in its place. -/
inductive Mode where
  | print | check | ast | inPlace
deriving DecidableEq, Repr

/-- Whether a text had its canonical form. -/
inductive Verdict where
  | unchanged | reformatted
deriving DecidableEq, Repr

/-- Why an input could not be processed. -/
inductive Failure where
  | file (name : String) (fault : FileFault)
  | stdin (fault : FileFault)
  | unparsable (name : String) (error : ParseError)
deriving DecidableEq, Repr

namespace Failure

def message : Failure → String
  | file name fault => "IO error on '" ++ name ++ "': " ++ fault.message
  | stdin fault => "IO error: " ++ fault.message
  | unparsable name error => name ++ ": " ++ error.message

/-- The messages of the errors behind the failure, from the nearest. -/
def causes : Failure → List String
  | file _ fault => [fault.message]
  | stdin fault => [fault.message]
  | unparsable _ error => [error.message, error.cause]

/-- An input that could not be read or written. -/
def ofInput : Input → FileFault → Failure
  | .stdin, fault => .stdin fault
  | .file name, fault => .file name fault

end Failure

/-- What processing an input comes to: what it reports, what it writes to the output, and
how it ends. -/
structure Processed where
  events : List Event
  out : String
  result : Except Failure Verdict

/-- The tree of a script as a JSON text. -/
def astText (text name : String) : Except Failure String :=
  match parseScript text with
  | .error e => .error (.unparsable name e)
  | .ok queries => .ok (scriptJson queries).pretty

theorem astText_eq {text : String} {queries : List Query} (h : parseScript text = .ok queries)
    (name : String) : astText text name = .ok (scriptJson queries).pretty := by
  rw [astText, h]

theorem astText_error {text : String} {e : ParseError} (h : parseScript text = .error e)
    (name : String) : astText text name = .error (.unparsable name e) := by
  rw [astText, h]

/-- What reading a script reports. -/
def parseEvents (text : String) : List Event :=
  match parseScript text with
  | .error _ => [.parsing text.utf8ByteSize]
  | .ok queries => [.parsing text.utf8ByteSize, .parsed queries.length]

namespace Input

def read (files : Files m) : Input → m (Except FileFault String)
  | stdin => files.readInput
  | file name => files.read name

/-- Puts the canonical form in its place.  The standard input has no place to write to,
so its canonical form goes to the output. -/
def replace [Monad m] (files : Files m) (input : Input) (events : List Event)
    (formatted : String) (verdict : Verdict) : m Processed :=
  match input, verdict with
  | stdin, verdict => return ⟨events, formatted, .ok verdict⟩
  | file _, .unchanged => return ⟨events, "", .ok .unchanged⟩
  | file name, .reformatted => do
    match ← files.write name formatted with
    | .ok () => return ⟨events ++ [.reformatted name], "", .ok .reformatted⟩
    | .error fault => return ⟨events, "", .error (.file name fault)⟩

/-- Does with the canonical form of an input that reads as `text` what the mode asks for. -/
def finish [Monad m] (files : Files m) (mode : Mode) (input : Input) (events : List Event)
    (text formatted : String) : m Processed :=
  let verdict :=
    if sameUpToTrailingBlanks formatted text then Verdict.unchanged else .reformatted
  match mode with
  | .print => return ⟨events, formatted, .ok verdict⟩
  | .check => return ⟨events, "", .ok verdict⟩
  | .ast => return ⟨events, "", .ok verdict⟩
  | .inPlace => input.replace files events formatted verdict

/-- The tree of an input is printed without a look at its canonical form. -/
def process [Monad m] (files : Files m) (mode : Mode) (input : Input) : m Processed := do
  match ← input.read files with
  | .error fault => return ⟨[], "", .error (.ofInput input fault)⟩
  | .ok text =>
    let events := .read input.name text.utf8ByteSize :: parseEvents text
    if mode = .ast then
      match astText text input.name with
      | .error failure => return ⟨events, "", .error failure⟩
      | .ok tree => return ⟨events, tree ++ "\n", .ok .unchanged⟩
    else
      match format text with
      | .error e => return ⟨events, "", .error (.unparsable input.name e)⟩
      | .ok formatted => input.finish files mode events text formatted

end Input
end QueryCanon
