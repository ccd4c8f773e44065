/-
Spans: the places of a text, as ranges of byte offsets in its UTF-8 form.
-/
namespace QueryCanon

/-- The bytes from `start` up to `stop`, `stop` itself left out. -/
structure Span where
  start : Nat
  stop : Nat
deriving DecidableEq, Repr, Inhabited

namespace Span

/-- The number of bytes covered. -/
def length (s : Span) : Nat := s.stop - s.start

def isEmpty (s : Span) : Bool := s.start == s.stop

/-- The least span that covers both. -/
def merge (a b : Span) : Span := ⟨min a.start b.start, max a.stop b.stop⟩

/-- A span at `p` that covers nothing. -/
def point (p : Nat) : Span := ⟨p, p⟩

/-- The place as messages write it. -/
def describe (s : Span) : String := toString s.start ++ ".." ++ toString s.stop

end Span

/-- The number of bytes that `cs` takes in UTF-8. -/
def utf8Length : List Char → Nat
  | [] => 0
  | c :: cs => c.utf8Size + utf8Length cs

theorem utf8Length_append (as bs : List Char) :
    utf8Length (as ++ bs) = utf8Length as + utf8Length bs := by
  induction as with
  | nil => simp [utf8Length]
  | cons a as ih => simp [utf8Length, ih, Nat.add_assoc]

end QueryCanon
