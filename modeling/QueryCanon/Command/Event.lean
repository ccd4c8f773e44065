/-
What a run reports while it works.
-/
namespace QueryCanon

inductive LogLevel where
  | debug | info | warn
deriving DecidableEq, Repr

namespace LogLevel

/-- The level's name, set to the right in five columns. -/
def label : LogLevel → String
  | debug => "DEBUG"
  | info => " INFO"
  | warn => " WARN"

end LogLevel

/-- Names are those of the inputs, lengths are in bytes. -/
inductive Event where
  | read (name : String) (length : Nat)
  | parsing (length : Nat)
  | parsed (count : Nat)
  | reformatted (name : String)
  | notCanonical (name : String)
deriving DecidableEq, Repr

namespace Event

def level : Event → LogLevel
  | read .. => .debug
  | parsing _ => .debug
  | parsed _ => .debug
  | reformatted _ => .info
  | notCanonical _ => .warn

/-- The hexadecimal digits of a byte. -/
def hexByte (n : Nat) : String :=
  String.ofList [Nat.digitChar (n / 16), Nat.digitChar (n % 16)]

/-- A character of a message.  The control characters that drive a terminal are written
as escapes. -/
def shown (c : Char) : String :=
  if c = '\x07' || c = '\x08' || c = '\x0c' || c = '\x1b' || c = '\x7f' then
    "\\x" ++ hexByte c.toNat
  else if 0x80 ≤ c.toNat && c.toNat ≤ 0x9f then "\\u\x7b" ++ hexByte c.toNat ++ "\x7d"
  else c.toString

def escape (message : String) : String := String.join (message.toList.map shown)

/-- What happened, with its measures behind it. -/
def text : Event → String
  | read name length => "read input input=" ++ name ++ " len=" ++ toString length
  | parsing length => "parsing statement list len=" ++ toString length
  | parsed count => "parsed statements count=" ++ toString count
  | reformatted name => escape ("Reformatted " ++ name)
  | notCanonical name => escape (name ++ " is not in canonical form")

def line (e : Event) : String := e.level.label ++ " " ++ e.text ++ "\n"

/-- Whether a run reports the event.  Only a verbose run reports each step. -/
def isReported (verbose : Bool) (e : Event) : Bool := verbose || e.level != .debug

end Event

/-- The lines of the events that are reported. -/
def logText (verbose : Bool) (events : List Event) : String :=
  String.join ((events.filter (Event.isReported verbose)).map Event.line)

end QueryCanon
