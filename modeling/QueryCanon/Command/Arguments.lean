/-
The arguments of the command.

They are read from left to right, and the first one that is wrong or that asks for help
or for the version ends the reading.  Switches may stand before and after files; behind
`--` all arguments are files.
-/
import QueryCanon.Command.Process

namespace QueryCanon

/-- The switches that say what is done. -/
inductive Flag where
  | check | ast | inPlace | verbose
deriving DecidableEq, Repr

inductive Switch where
  | flag (flag : Flag)
  | help
  | version
deriving DecidableEq, Repr

namespace Flag

def name : Flag → String
  | check => "check"
  | ast => "ast"
  | inPlace => "in-place"
  | verbose => "verbose"

end Flag

namespace Switch

def ofName? : String → Option Switch
  | "check" => some (.flag .check)
  | "ast" => some (.flag .ast)
  | "in-place" => some (.flag .inPlace)
  | "verbose" => some (.flag .verbose)
  | "help" => some .help
  | "version" => some .version
  | _ => none

/-- The switches that a letter stands for. -/
def ofLetter? : Char → Option Switch
  | 'i' => some (.flag .inPlace)
  | 'v' => some (.flag .verbose)
  | 'h' => some .help
  | 'V' => some .version
  | _ => none

end Switch

/-- What is wrong with the arguments, or with the setting that stands in for one. -/
inductive UsageError where
  | unknown (argument : String)
  | repeated (flag : Flag)
  | emptyName
  | badSetting (value : String)
  | conflict (a b : Flag)
  | noFiles
deriving DecidableEq, Repr

namespace UsageError

def message : UsageError → String
  | unknown argument => "unexpected argument '" ++ argument ++ "'"
  | repeated flag => "--" ++ flag.name ++ " is given more than once"
  | emptyName => "a file name is empty"
  | badSetting value => "invalid value '" ++ value ++ "' for --check"
  | conflict a b => "--" ++ a.name ++ " cannot be used with --" ++ b.name
  | noFiles => "--in-place needs files"

end UsageError

/-- Why a run does not begin. -/
inductive Stop where
  | usage (error : UsageError)
  | help
  | version
deriving DecidableEq, Repr

/-- The arguments read so far. -/
structure Arguments where
  files : List String
  flags : List Flag
deriving DecidableEq, Repr

namespace Arguments

def raise (a : Arguments) : Switch → Except Stop Arguments
  | .help => .error .help
  | .version => .error .version
  | .flag f =>
    if f ∈ a.flags then .error (.usage (.repeated f)) else .ok { a with flags := f :: a.flags }

def addFile (a : Arguments) (name : String) : Except Stop Arguments :=
  if name.isEmpty then .error (.usage .emptyName) else .ok { a with files := a.files ++ [name] }

/-- One argument before `--`.  A hyphen on its own is a file; behind one hyphen each
letter is a switch. -/
def add (a : Arguments) (argument : String) : Except Stop Arguments :=
  match argument.toList with
  | ['-'] => a.addFile argument
  | '-' :: '-' :: name =>
    match Switch.ofName? (String.ofList name) with
    | some switch => a.raise switch
    | none => .error (.usage (.unknown argument))
  | '-' :: letters =>
    letters.foldlM (fun a letter =>
      match Switch.ofLetter? letter with
      | some switch => a.raise switch
      | none => .error (.usage (.unknown argument))) a
  | _ => a.addFile argument

def addAll (a : Arguments) : List String → Except Stop Arguments
  | [] => .ok a
  | "--" :: files => files.foldlM addFile a
  | argument :: more => do (← a.add argument).addAll more

end Arguments

/-- What a run is to do. -/
structure Options where
  files : List String
  mode : Mode
  verbose : Bool
deriving DecidableEq, Repr

/-- The setting that stands in for `--check`. -/
def checkSetting? : String → Option Bool
  | "true" => some true
  | "false" => some false
  | _ => none

namespace Options

/-- The mode of a run.  A setting for `--check` counts as that switch where switches
exclude each other, whatever its value. -/
def mode? (check : Option Bool) (ast inPlace : Bool) : Except UsageError Mode :=
  if ast && check.isSome then .error (.conflict .ast .check)
  else if ast && inPlace then .error (.conflict .ast .inPlace)
  else if inPlace && check.isSome then .error (.conflict .inPlace .check)
  else if ast then .ok .ast
  else if check == some true then .ok .check
  else if inPlace then .ok .inPlace
  else .ok .print

/-- The switch `--check`, or the setting in its place. -/
def check? (flags : List Flag) (setting : Option String) : Except UsageError (Option Bool) :=
  if .check ∈ flags then .ok (some true)
  else
    match setting with
    | none => .ok none
    | some value =>
      match checkSetting? value with
      | some check => .ok (some check)
      | none => .error (.badSetting value)

/-- The options that arguments and the setting for `--check` come to. -/
def ofArguments (a : Arguments) (setting : Option String) : Except UsageError Options := do
  let check ← check? a.flags setting
  let mode ← mode? check (.ast ∈ a.flags) (.inPlace ∈ a.flags)
  if .inPlace ∈ a.flags && a.files.isEmpty then
    throw .noFiles
  return ⟨a.files, mode, .verbose ∈ a.flags⟩

def parse (arguments : List String) (setting : Option String) : Except Stop Options := do
  let a ← Arguments.addAll ⟨[], []⟩ arguments
  match ofArguments a setting with
  | .ok o => return o
  | .error e => throw (.usage e)

end Options
end QueryCanon
