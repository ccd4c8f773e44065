/-
The lexer: a place in a text, from which tokens are read one after another.

After an error the lexer stands behind the text the error is about, so reading can go
on from there.
-/
import QueryCanon.Lexical.Gap
import QueryCanon.Lexical.Lexeme

namespace QueryCanon

/-- A stretch of text that is no token. -/
structure LexError where
  fault : LexFault
  span : Span
deriving DecidableEq, Repr

namespace LexError

def message (e : LexError) : String :=
  e.fault.message ++ " at position " ++ e.span.describe

end LexError

/-- The text still to read, and the offset in bytes at which it begins. -/
structure Lexer where
  pos : Nat
  rest : List Char

namespace Lexer

def ofText (text : String) : Lexer := ⟨0, text.toList⟩

/-- The next token, or nothing at the end of the text, and the lexer behind it. -/
def next (l : Lexer) : Except LexError (Option Placed) × Lexer :=
  let gap := Gap.split l.rest
  let start := l.pos + utf8Length gap.1
  match gap.2 with
  | [] => (.ok none, ⟨start, []⟩)
  | c :: rest =>
    let read := Lexeme.read c rest
    let span : Span := ⟨start, start + utf8Length read.1.text⟩
    let after : Lexer := ⟨span.stop, read.2⟩
    match read.1.content with
    | .ok token => (.ok (some ⟨token, span⟩), after)
    | .error fault => (.error ⟨fault, span⟩, after)

/-- A token takes something from the text. -/
theorem length_next_lt {l after : Lexer} {p : Placed} (h : l.next = (.ok (some p), after)) :
    after.rest.length < l.rest.length := by
  have hgap := Gap.length_split_le l.rest
  simp only [next] at h
  split at h
  · cases h
  · next c rest hrest =>
    have hread := Lexeme.length_read_lt c rest
    rw [hrest] at hgap
    split at h
    · cases h
      exact Nat.lt_of_lt_of_le hread hgap
    · cases h

/-- All tokens up to the end of the text, or the first error. -/
def tokenize (l : Lexer) : Except LexError (List Placed) × Lexer :=
  match _hnext : l.next with
  | (.error e, after) => (.error e, after)
  | (.ok none, after) => (.ok [], after)
  | (.ok (some p), after) =>
    let more := tokenize after
    (more.1.map (p :: ·), more.2)
termination_by l.rest.length
decreasing_by exact length_next_lt _hnext

end Lexer
end QueryCanon
