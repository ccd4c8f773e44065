/-
The limit on nesting is only a limit.

The parser with a limit and the one without come to the same, with the same place left to
read from, as long as no more expressions are active at once than the limit allows.  As soon
as there is one too many the limit stops the reading, at the token with which that one
begins.
-/
import QueryCanon.Parser
import QueryCanon.Proofs.Grammar.Breadth
import QueryCanon.Proofs.Grammar.Peak

namespace QueryCanon

open Grammar

variable {α : Type} {n m : Nat}

namespace Parser

/-- Only the error about the limit names it. -/
theorem run_limit {r : Reader α} {p : Parser}
    (h : ∀ rest, r.read p.kinds ≠ .failed .tooDeep rest) : p.run n r = p.run m r := by
  cases hread : r.read p.kinds with
  | done a rest => rw [run_done hread, run_done hread]
  | failed fault rest =>
    rw [run_failed hread, run_failed hread]
    cases fault with
    | tooDeep => exact absurd hread (h rest)
    | expected wanted => rfl
    | unclosed opened => rfl

theorem run_congr {r r' : Reader α} {p : Parser} (h : r.read p.kinds = r'.read p.kinds) :
    p.run n r = p.run n r' := by
  cases hread : r'.read p.kinds with
  | done a rest => rw [run_done (h.trans hread), run_done hread]
  | failed fault rest => rw [run_failed (h.trans hread), run_failed hread]

theorem run_tooDeep {r : Reader α} {p : Parser} {rest : List Token}
    (h : r.read p.kinds = .failed .tooDeep rest) :
    p.run n r = (.error ⟨.tooDeep n, (p.skipTo rest.length).span⟩, p.skipTo rest.length) :=
  run_failed h

theorem run_ne_tooDeep {r : Reader α} {p : Parser}
    (h : ∀ rest, r.read p.kinds ≠ .failed .tooDeep rest) (span : Span) (after : Parser) :
    p.run n r ≠ (.error ⟨.tooDeep n, span⟩, after) := by
  cases hread : r.read p.kinds with
  | done a rest =>
    rw [run_done hread]
    nofun
  | failed fault rest =>
    rw [run_failed hread]
    cases fault with
    | tooDeep => exact absurd hread (h rest)
    | expected wanted => nofun
    | unclosed opened => nofun

/-- The readers `r`, one for each limit, are the one without a limit, stopped where it goes
too deep.  Here the limit is `n`, and `p` is the place to read from. -/
structure OnlyCaps (r : Nat → Reader α) (n : Nat) (p : Parser) : Prop where
  within : (uncapped r).peak p.kinds ≤ n → p.run n (r n) = p.run n (uncapped r)
  beyond : n < (uncapped r).peak p.kinds →
    ∃ d, ((uncapped r).descents p.kinds).find? (fun d => d.depth = n + 1) = some d ∧
      p.run n (r n) = (.error ⟨.tooDeep n, (p.skipTo d.left).span⟩, p.skipTo d.left)
  never : ∀ span after, p.run n (uncapped r) ≠ (.error ⟨.tooDeep n, span⟩, after)
  raised : ∀ m, n ≤ m → (∀ span after, p.run n (r n) ≠ (.error ⟨.tooDeep n, span⟩, after)) →
    p.run m (r m) = p.run n (r n)

theorem onlyCaps {r : Nat → Reader α} (hsteady : Steady r)
    (hcapped : ∀ {n m}, n ≤ m → Capped n (r n) (r m))
    (hgradual : ∀ ts, Gradual ((uncapped r).descents ts)) (n : Nat) (p : Parser) :
    OnlyCaps r n p where
  within hpeak := run_congr ((capped_uncapped hsteady hcapped n).read_eq hpeak)
  beyond hpeak := by
    obtain ⟨d, rest, hfind, hread, hlength⟩ :=
      (capped_uncapped hsteady hcapped n).read_tooDeep hpeak
    rw [hgradual] at hfind
    exact ⟨d, hfind, by rw [run_tooDeep hread, hlength]⟩
  never := run_ne_tooDeep hsteady.notDeep
  raised m hnm hn := by
    rcases (hcapped hnm).read_eq_or p.kinds with heq | ⟨rest, hdeep⟩
    · have hne : ∀ rest, (r n).read p.kinds ≠ .failed .tooDeep rest := fun rest hread =>
        hn _ _ (run_tooDeep hread)
      rw [run_congr heq.symm]
      exact run_limit hne
    · exact absurd (run_tooDeep hdeep) (hn _ _)

end Parser

/-- Without a limit the parser is the same grammar, nested without end.  A limit makes of it
what `Parser.OnlyCaps` says, on all tokens, and breadth does not bring it about. -/
theorem limit_only_caps :
    (uncapped statement = query unlimited ∧
      uncapped wholeExpression = wholeExpressionOf unlimited ∧
      ∀ level, unlimited level = Reader.nested (operandAndTails unlimited level)) ∧
    (∀ n p, Parser.OnlyCaps statement n p) ∧
    (∀ n p, Parser.OnlyCaps wholeExpression n p) ∧
    ∀ n, Broad n :=
  ⟨⟨uncapped_statement, uncapped_wholeExpression, unlimited_eq⟩,
    Parser.onlyCaps steady_statement statement_capped uncapped_statement_gradual,
    Parser.onlyCaps steady_wholeExpression wholeExpression_capped
      uncapped_wholeExpression_gradual,
    broad⟩

/-- `((a = b`, with a place for each token. -/
def openedTwice : Parser :=
  ⟨[⟨.leftParen, ⟨0, 1⟩⟩, ⟨.leftParen, ⟨1, 2⟩⟩, ⟨.identifier "a", ⟨2, 3⟩⟩, ⟨.eq, ⟨4, 5⟩⟩,
    ⟨.identifier "b", ⟨6, 7⟩⟩], 7⟩

/-- With room for four levels the end of the text is missing a parenthesis.  With room for
three the limit is met before that, at `b`. -/
theorem limit_only_caps_openedTwice :
    ((uncapped wholeExpression).peak openedTwice.kinds ≤ 4 ∧
      openedTwice.run 4 (wholeExpression 4) = openedTwice.run 4 (uncapped wholeExpression)) ∧
    (3 < (uncapped wholeExpression).peak openedTwice.kinds ∧
      ∃ d, ((uncapped wholeExpression).descents openedTwice.kinds).find?
          (fun d => d.depth = 3 + 1) = some d ∧
        openedTwice.run 3 (wholeExpression 3) =
          (.error ⟨.tooDeep 3, (openedTwice.skipTo d.left).span⟩, openedTwice.skipTo d.left)) := by
  have hwithin : (uncapped wholeExpression).peak openedTwice.kinds ≤ 4 := by decide +kernel
  have hbeyond : 3 < (uncapped wholeExpression).peak openedTwice.kinds := by decide +kernel
  exact ⟨⟨hwithin, (limit_only_caps.2.2.1 4 openedTwice).within hwithin⟩, hbeyond,
    (limit_only_caps.2.2.1 3 openedTwice).beyond hbeyond⟩

end QueryCanon
