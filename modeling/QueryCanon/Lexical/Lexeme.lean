/-
Lexemes: the stretches of a text that are not gaps.

`read` takes the lexeme at the head of a text.  It always takes something, and what it
takes and what it leaves make up the text.
-/
import QueryCanon.Token
import QueryCanon.Unicode.Letter
import QueryCanon.Unicode.Numeral

namespace QueryCanon

/-- Why a stretch of text is no token. -/
inductive LexFault where
  | unexpectedChar (c : Char)
  | unterminatedString
  | unterminatedComment
  | other (message : String)
deriving DecidableEq, Repr

namespace LexFault

def message : LexFault → String
  | unexpectedChar c => "Unexpected character: " ++ c.toString
  | unterminatedString => "Unterminated string literal"
  | unterminatedComment => "Unterminated block comment"
  | other message => message

end LexFault

/-- A stretch of text and what it stands for. -/
structure Lexeme where
  content : Except LexFault Token
  text : List Char

namespace Lexeme

open Unicode (isLetter isNumeral)

/-- A character that may begin a word. -/
def isWordStart (c : Char) : Bool := isLetter c || c == '_'

/-- A character that may stand inside a word. -/
def isWordPart (c : Char) : Bool := isLetter c || isNumeral c || c == '_'

/-- A word is a keyword if it spells one, and a name otherwise. -/
def wordToken (text : List Char) : Token :=
  match Keyword.ofWord? text with
  | some k => .keyword k
  | none => .identifier (String.ofList text)

/-- Cuts the text after an opening quote at the quote that closes the string.  A
doubled quote belongs to the string and does not close it. -/
def closeQuote : List Char → Option (List Char × List Char)
  | [] => none
  | '\'' :: '\'' :: rest => (closeQuote rest).map fun (body, left) => ('\'' :: '\'' :: body, left)
  | '\'' :: rest => some ([], rest)
  | c :: rest => (closeQuote rest).map fun (body, left) => (c :: body, left)

/-- The cut loses nothing but the closing quote. -/
theorem append_of_closeQuote {text body left : List Char}
    (h : closeQuote text = some (body, left)) : body ++ '\'' :: left = text := by
  fun_induction closeQuote text generalizing body left with
  | case1 => cases h
  | case2 rest ih =>
    obtain ⟨⟨b, l⟩, hcut, he⟩ := Option.map_eq_some_iff.mp h
    cases he
    simp [ih hcut]
  | case3 rest _ =>
    cases h
    rfl
  | case4 c rest _ _ ih =>
    obtain ⟨⟨b, l⟩, hcut, he⟩ := Option.map_eq_some_iff.mp h
    cases he
    simp [ih hcut]

/-- A string from its opening quote on. -/
def readString (rest : List Char) : Lexeme × List Char :=
  match closeQuote rest with
  | some (body, left) =>
    (⟨.ok (.string (String.ofList body)), '\'' :: body ++ ['\'']⟩, left)
  | none => (⟨.error .unterminatedString, '\'' :: rest⟩, [])

/-- A number that begins with the digit `c`.  A point belongs to it only with a digit
behind the point. -/
def readNumber (c : Char) (rest : List Char) : Lexeme × List Char :=
  let whole := c :: rest.takeWhile Char.isDigit
  let left := rest.dropWhile Char.isDigit
  match left with
  | '.' :: d :: more =>
    if d.isDigit then
      let text := whole ++ '.' :: d :: more.takeWhile Char.isDigit
      (⟨.ok (.decimal (String.ofList text)), text⟩, more.dropWhile Char.isDigit)
    else (⟨.ok (.integer (String.ofList whole)), whole⟩, left)
  | _ => (⟨.ok (.integer (String.ofList whole)), whole⟩, left)

/-- A word that begins with `c`. -/
def readWord (c : Char) (rest : List Char) : Lexeme × List Char :=
  let text := c :: rest.takeWhile isWordPart
  (⟨.ok (wordToken text), text⟩, rest.dropWhile isWordPart)

/-- The lexeme at the head of the text `c :: rest`, and the text after it.  A comment
that is closed is part of a gap, so one that begins here has no end. -/
def read (c : Char) (rest : List Char) : Lexeme × List Char :=
  match c, rest with
  | '(', rest => (⟨.ok .leftParen, ['(']⟩, rest)
  | ')', rest => (⟨.ok .rightParen, [')']⟩, rest)
  | ',', rest => (⟨.ok .comma, [',']⟩, rest)
  | '.', rest => (⟨.ok .dot, ['.']⟩, rest)
  | ';', rest => (⟨.ok .semicolon, [';']⟩, rest)
  | '*', rest => (⟨.ok .star, ['*']⟩, rest)
  | '=', rest => (⟨.ok .eq, ['=']⟩, rest)
  | '<', '=' :: rest => (⟨.ok .lessEq, ['<', '=']⟩, rest)
  | '<', '>' :: rest => (⟨.ok .notEq, ['<', '>']⟩, rest)
  | '<', rest => (⟨.ok .less, ['<']⟩, rest)
  | '>', '=' :: rest => (⟨.ok .greaterEq, ['>', '=']⟩, rest)
  | '>', rest => (⟨.ok .greater, ['>']⟩, rest)
  | '!', '=' :: rest => (⟨.ok .notEq, ['!', '=']⟩, rest)
  | '/', '*' :: rest => (⟨.error .unterminatedComment, '/' :: '*' :: rest⟩, [])
  | '\'', rest => readString rest
  | c, rest =>
    if c.isDigit then readNumber c rest
    else if isWordStart c then readWord c rest
    else (⟨.error (.unexpectedChar c), [c]⟩, rest)

theorem append_readString (rest : List Char) :
    (readString rest).1.text ++ (readString rest).2 = '\'' :: rest := by
  unfold readString
  split
  next body left h => simp [← append_of_closeQuote h]
  next => simp

theorem append_readNumber (c : Char) (rest : List Char) :
    (readNumber c rest).1.text ++ (readNumber c rest).2 = c :: rest := by
  have h := List.takeWhile_append_dropWhile (p := Char.isDigit) (l := rest)
  unfold readNumber
  dsimp only
  split
  next d more hleft =>
    split
    · simp only [List.append_assoc, List.cons_append, List.takeWhile_append_dropWhile]
      rw [← hleft, h]
    · simp [h]
  next => simp [h]

theorem append_readWord (c : Char) (rest : List Char) :
    (readWord c rest).1.text ++ (readWord c rest).2 = c :: rest := by
  simp [readWord, List.takeWhile_append_dropWhile]

/-- What is taken and what is left make up the text. -/
theorem append_read (c : Char) (rest : List Char) :
    (read c rest).1.text ++ (read c rest).2 = c :: rest := by
  unfold read
  split
  case h_14 => simp
  case h_15 => exact append_readString _
  case h_16 =>
    split
    · exact append_readNumber _ _
    · split
      · exact append_readWord _ _
      · rfl
  all_goals rfl

theorem text_readString_ne_nil (rest : List Char) : (readString rest).1.text ≠ [] := by
  unfold readString
  split <;> simp

theorem text_readNumber_ne_nil (c : Char) (rest : List Char) :
    (readNumber c rest).1.text ≠ [] := by
  unfold readNumber
  dsimp only
  split
  · split <;> simp
  · simp

/-- Something is always taken. -/
theorem text_read_ne_nil (c : Char) (rest : List Char) : (read c rest).1.text ≠ [] := by
  unfold read
  split
  case h_15 => exact text_readString_ne_nil _
  case h_16 =>
    split
    · exact text_readNumber_ne_nil _ _
    · split
      · simp [readWord]
      · simp
  all_goals simp

theorem length_read_lt (c : Char) (rest : List Char) :
    (read c rest).2.length < (c :: rest).length := by
  have h := congrArg List.length (append_read c rest)
  have hpos := List.length_pos_iff.mpr (text_read_ne_nil c rest)
  rw [List.length_append] at h
  omega

end Lexeme
end QueryCanon
