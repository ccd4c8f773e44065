/-
A negation before a predicate and one inside it are the same query.

The two texts are read as one tree, whatever expression the predicate is about and whatever
chain of `AND`, `OR` and parentheses it stands in, so they have one canonical text.
-/
import QueryCanon.Proofs.Canonical.Single
import QueryCanon.Proofs.Grammar.Negation

namespace QueryCanon

open Grammar

variable {text : String} {ts xs ys before after : List Token} {e : Expr}

theorem Grammar.Means.parseExprWithin_eq (h : Means ts e) (htext : tokens? text = some ts)
    {limit : Nat} (hlimit : ts.length ≤ limit) : parseExprWithin limit text = .ok e :=
  readText_ok_iff.mpr ⟨ts, [], htext, h.read hlimit⟩

/-- Under a limit that the text is too short to reach, a predicate with its `NOT` in front of all
and one with it inside are read as the same tree, and so have the same canonical text.  It is that
of the predicate without the `NOT`, negated, in its place in the whole. -/
theorem negation_placement (hts : Negatable ts) (h : Negates ts xs ys)
    (hplace : Around before after) :
    ∃ (plain : Expr) (place : Expr → Expr), Means xs.tail plain ∧ plain.negate.isNegated = true ∧
      (∀ zs e, Means zs e → Means (before ++ zs ++ after) (place e)) ∧
      ∀ zs ∈ [xs, ys], Means zs plain.negate ∧
        ∀ text limit, tokens? text = some (before ++ zs ++ after) →
          (before ++ zs ++ after).length ≤ limit →
          parseExprWithin limit text = .ok (place plain.negate) ∧
            (parseExprWithin limit text).map Expr.text = .ok (place plain.negate).text := by
  obtain ⟨plain, hplain, hnegated, hxs, hys⟩ := h.means hts
  obtain ⟨place, hwhole⟩ := hplace.means
  have hboth : ∀ zs ∈ [xs, ys], Means zs plain.negate :=
    List.forall_mem_cons.mpr ⟨hxs, List.forall_mem_singleton.mpr hys⟩
  refine ⟨plain, place, hplain, hnegated, hwhole, fun zs hzs => ⟨hboth zs hzs, ?_⟩⟩
  intro text limit htext hlimit
  have hparse := (hwhole zs _ (hboth zs hzs)).parseExprWithin_eq htext hlimit
  exact ⟨hparse, by rw [hparse]; rfl⟩

/-- `a IS NOT NULL = 1` -/
def chained : List Token :=
  [.identifier "a", .keyword .IS, .keyword .NOT, .keyword .NULL, .eq, .integer "1"]

/-- Its tree. -/
def chainedTree : Expr :=
  .compare (.isNull (.column ⟨none, "a"⟩) true) .eq (.literal (.number "1"))

theorem chained_negatable : Negatable chained where
  read := ⟨chainedTree, by decide +kernel, rfl⟩
  noRowTest := by decide
  noPrefix := by decide

/-- `x OR (a IS NOT NULL = 1 <> b AND y)` -/
def chainedWhole : Expr :=
  .or (.column ⟨none, "x"⟩)
    (.paren (.and (.compare chainedTree .notEq (.column ⟨none, "b"⟩)) (.column ⟨none, "y"⟩)))

/-- Only the last of the tails takes the negation up. -/
theorem negation_placement_chained :
    Negatable chained ∧
    Negates chained (.keyword .NOT :: (chained ++ .eq :: [.identifier "b"]))
      (chained ++ .notEq :: [.identifier "b"]) ∧
    Around ([.identifier "x"] ++ .keyword .OR :: [.leftParen])
      (([] ++ .keyword .AND :: [.identifier "y"]) ++ [.rightParen]) ∧
    parseExprWithin 16 "x or (not a is not null = 1 = b and y)" = .ok chainedWhole ∧
    parseExprWithin 16 "x or (a is not null = 1 <> b and y)" = .ok chainedWhole ∧
    parseExprWithin 16 "x or (a is not null = 1 != b and y)" = .ok chainedWhole := by
  have hnegates : Negates chained (.keyword .NOT :: (chained ++ .eq :: [.identifier "b"]))
      (chained ++ .notEq :: [.identifier "b"]) :=
    .equal ⟨⟨.column ⟨none, "b"⟩, by decide +kernel⟩, by decide⟩
  have hplace : Around ([.identifier "x"] ++ .keyword .OR :: [.leftParen])
      (([] ++ .keyword .AND :: [.identifier "y"]) ++ [.rightParen]) :=
    .right .or ⟨.column ⟨none, "x"⟩, by decide +kernel⟩
      (.parens (.left .and ⟨.column ⟨none, "y"⟩, by decide +kernel⟩ .nothing))
  have hfirst : parseExprWithin 16 "x or (not a is not null = 1 = b and y)" = .ok chainedWhole :=
    ok_of_toOption (by decide +kernel)
  obtain ⟨plain, place, -, -, -, he⟩ := negation_placement chained_negatable hnegates hplace
  obtain ⟨-, hbefore⟩ := he _ List.mem_cons_self
  obtain ⟨-, hbehind⟩ := he _ (List.mem_cons_of_mem _ List.mem_cons_self)
  have htree : place plain.negate = chainedWhole :=
    Except.ok.inj ((hbefore _ 16 (by decide +kernel) (by decide)).1.symm.trans hfirst)
  rw [← htree] at hfirst ⊢
  refine ⟨chained_negatable, hnegates, hplace, hfirst, ?_, ?_⟩
  · exact (hbehind _ 16 (by decide +kernel) (by decide)).1
  · exact (hbehind _ 16 (by decide +kernel) (by decide)).1

end QueryCanon
