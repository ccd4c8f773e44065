/-
Runs of the command over its inputs.

The inputs are processed in order up to the first that fails.  A run fails if one of
them does, or if it checks and one of them has not its canonical form.
-/
import QueryCanon.Command.Arguments

namespace QueryCanon

/-- What a run leaves behind beside the files. -/
structure Report where
  exit : Nat
  stdout : String
  stderr : String
deriving DecidableEq, Repr

namespace Report

/-- Joins lines with a line break and an indentation. -/
def indent (indentation : String) (text : String) : String :=
  String.intercalate ("\n" ++ indentation)
    ((text.toList.splitOn '\n').map String.ofList)

/-- A number set to the right in five columns. -/
def column (n : Nat) : String :=
  let digits := toString n
  String.ofList (List.replicate (5 - digits.length) ' ') ++ digits

/-- The causes of a failure; several are numbered. -/
def causeLines : List String → List String
  | [cause] => ["    " ++ indent "    " cause]
  | causes => causes.mapIdx fun n cause => column n ++ ": " ++ indent "       " cause

/-- What is said of a run that failed. -/
def errorText (message : String) (causes : List String) : String :=
  "Error: " ++ message ++ "\n" ++
    if causes.isEmpty then ""
    else "\nCaused by:\n" ++ String.join ((causeLines causes).map (· ++ "\n"))

end Report

/-- What the inputs of a run have come to so far. -/
structure Progress where
  events : List Event
  out : String
  notCanonical : Nat
  failure : Option Failure

namespace Progress

def start : Progress := ⟨[], "", 0, none⟩

/-- The progress after a further input. -/
def add (mode : Mode) (input : Input) (p : Progress) (done : Processed) : Progress :=
  match done.result with
  | .error failure => ⟨p.events ++ done.events, p.out ++ done.out, p.notCanonical, some failure⟩
  | .ok verdict =>
    if mode = .check ∧ verdict = .reformatted then
      ⟨p.events ++ done.events ++ [.notCanonical input.name], p.out ++ done.out,
        p.notCanonical + 1, none⟩
    else ⟨p.events ++ done.events, p.out ++ done.out, p.notCanonical, none⟩

/-- Processes the inputs in order, up to the first that fails. -/
def through [Monad m] (files : Files m) (mode : Mode) (p : Progress) : List Input → m Progress
  | [] => return p
  | input :: more => do
    let p := p.add mode input (← input.process files mode)
    if p.failure.isSome then
      return p
    else
      p.through files mode more

/-- How the run ends. -/
def report (verbose : Bool) (p : Progress) : Report :=
  let log := logText verbose p.events
  match p.failure with
  | some failure => ⟨1, p.out, log ++ Report.errorText failure.message failure.causes⟩
  | none =>
    if p.notCanonical = 0 then ⟨0, p.out, log⟩
    else
      ⟨1, p.out,
        log ++ Report.errorText (toString p.notCanonical ++ " input(s) not in canonical form") []⟩

end Progress

namespace Options

/-- The inputs of a run; without files it is the standard input. -/
def inputs (o : Options) : List Input :=
  if o.files.isEmpty then [.stdin] else o.files.map .file

def run [Monad m] (files : Files m) (o : Options) : m Report := do
  return (← Progress.start.through files o.mode o.inputs).report o.verbose

end Options

namespace Command

def name : String := "soql-fmt"

/-- The variable of the environment that stands in for `--check`. -/
def settingName : String := "SOQL_FMT_CHECK"

def versionText : String := name ++ " 0.1.0\n"

def helpText : String :=
  "Canonical formatter for SQL and SOQL queries.\n\n" ++
  "Usage: " ++ name ++ " [OPTIONS] [FILES]...\n\n" ++
  "Arguments:\n" ++
  "  [FILES]...  Files to format (reads standard input if none are given)\n\n" ++
  "Options:\n" ++
  "      --check     Exit with an error if any input is not in canonical form\n" ++
  "      --ast       Print the parsed tree as JSON instead of canonical text\n" ++
  "  -i, --in-place  Rewrite files with their canonical text\n" ++
  "  -v, --verbose   Enable verbose output\n" ++
  "  -h, --help      Print help\n" ++
  "  -V, --version   Print version\n"

/-- The report of a run that does not begin. -/
def stopReport : Stop → Report
  | .help => ⟨0, helpText, ""⟩
  | .version => ⟨0, versionText, ""⟩
  | .usage e => ⟨2, "", "error: " ++ e.message ++ "\n"⟩

/-- The command with its arguments and the setting for `--check`. -/
def run [Monad m] (files : Files m) (arguments : List String) (setting : Option String) :
    m Report :=
  match Options.parse arguments setting with
  | .ok o => o.run files
  | .error stop => return stopReport stop

end Command
end QueryCanon
