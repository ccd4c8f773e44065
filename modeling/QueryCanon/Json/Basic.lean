/-
JSON documents without numbers, and the text they are printed as.

An object keeps its fields in order.  The text is indented by two blanks a level, with
one entry to a line.
-/
namespace QueryCanon

inductive Json where
  | null
  | bool (value : Bool)
  | string (value : String)
  | array (items : List Json)
  | object (fields : List (String × Json))

namespace Json

/-- An object of one field. -/
def tagged (tag : String) (value : Json) : Json := .object [(tag, value)]

/-- A string or nothing. -/
def optionalString : Option String → Json
  | none => .null
  | some s => .string s

/-- The digit that stands for `n`, below sixteen. -/
def hexDigit (n : Nat) : Char := if n < 10 then Char.ofNat (48 + n) else Char.ofNat (87 + n)

/-- A character as it is written inside a string.  The quote, the backslash and the
control characters below the blank are escaped; all others stand for themselves. -/
def escape (c : Char) : List Char :=
  if c = '"' then ['\\', '"']
  else if c = '\\' then ['\\', '\\']
  else if c = '\n' then ['\\', 'n']
  else if c = '\r' then ['\\', 'r']
  else if c = '\t' then ['\\', 't']
  else if c = '\x08' then ['\\', 'b']
  else if c = '\x0c' then ['\\', 'f']
  else if c.toNat < 32 then
    ['\\', 'u', '0', '0', hexDigit (c.toNat / 16), hexDigit (c.toNat % 16)]
  else [c]

def quote (s : String) : List Char := '"' :: s.toList.flatMap escape ++ ['"']

/-- A new line at the given depth. -/
def newline (depth : Nat) : List Char := '\n' :: List.replicate (2 * depth) ' '

mutual

/-- The text of a value that stands at the given depth, and `tail` behind it. -/
def write (depth : Nat) : Json → List Char → List Char
  | .null, tail => 'n' :: 'u' :: 'l' :: 'l' :: tail
  | .bool true, tail => 't' :: 'r' :: 'u' :: 'e' :: tail
  | .bool false, tail => 'f' :: 'a' :: 'l' :: 's' :: 'e' :: tail
  | .string s, tail => quote s ++ tail
  | .array [], tail => '[' :: ']' :: tail
  | .array (item :: items), tail =>
    '[' :: newline (depth + 1) ++
      write (depth + 1) item (writeItems (depth + 1) items (newline depth ++ ']' :: tail))
  | .object [], tail => '\x7b' :: '\x7d' :: tail
  | .object ((key, value) :: fields), tail =>
    '\x7b' :: newline (depth + 1) ++ quote key ++ ':' :: ' ' ::
      write (depth + 1) value (writeFields (depth + 1) fields (newline depth ++ '\x7d' :: tail))

/-- The items behind the first, and `tail` behind them. -/
def writeItems (depth : Nat) : List Json → List Char → List Char
  | [], tail => tail
  | item :: items, tail =>
    ',' :: newline depth ++ write depth item (writeItems depth items tail)

/-- The fields behind the first, and `tail` behind them. -/
def writeFields (depth : Nat) : List (String × Json) → List Char → List Char
  | [], tail => tail
  | (key, value) :: fields, tail =>
    ',' :: newline depth ++ quote key ++ ':' :: ' ' ::
      write depth value (writeFields depth fields tail)

end

/-- The document as text. -/
def pretty (j : Json) : String := String.ofList (write 0 j [])

end Json
end QueryCanon
