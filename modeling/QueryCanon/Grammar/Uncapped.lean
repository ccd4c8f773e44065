/-
The grammar without a limit on nesting.

Each expression inside another begins behind a token of its own, so on a list of `n` tokens
a limit of `n + 1` is none.
-/
import QueryCanon.Grammar.Script

namespace QueryCanon
namespace Grammar

/-- The readers `r`, one for each limit on nesting, as one reader that has none: on any
tokens it is the one whose limit they are too short to reach. -/
def uncapped (r : Nat → Reader α) : Reader α where
  read ts := (r (ts.length + 1)).read ts
  descents ts := (r (ts.length + 1)).descents ts
  walk limit ts c := (r ((ts.drop c.index).length + 1)).walk limit ts c
  suffix ts := (r (ts.length + 1)).suffix ts
  within ts := (r (ts.length + 1)).within ts
  walk_eq limit ts c := (r ((ts.drop c.index).length + 1)).walk_eq limit ts c

theorem descents_uncapped (r : Nat → Reader α) (ts : List Token) :
    (uncapped r).descents ts = (r (ts.length + 1)).descents ts := rfl

/-- An expression without a limit on nesting. -/
def unlimited (level : Level) : Reader Expr := uncapped fun n => expression n level

end Grammar
end QueryCanon
