/-
What a call does to the tokens that are left.

It leaves an end of them, and less of them if it reads something.  An error that it answers
is about the first of those that it leaves, if it is not about the limit.
-/
import QueryCanon.Proofs.Grammar.Prefix
import QueryCanon.Proofs.Parser.Report
import QueryCanon.Session

namespace QueryCanon

open Grammar

variable {α : Type} {limit : Nat}

namespace Grammar

open Reader

/-- A reader that takes a token if it succeeds. -/
def Advances (r : Reader α) : Prop :=
  ∀ {ts a rest}, r.read ts = .done a rest → rest.length < ts.length

theorem statement_advances (n : Nat) : Advances (statement n) := by
  intro ts q rest h
  obtain ⟨_, mid, hselect, hbody⟩ := bind_done.mp h
  rw [expectKeyword_done.mp hselect]
  exact Nat.lt_succ_of_le (read_suffix hbody).length_le

theorem expression_advances (n : Nat) (level : Level) : Advances (expression n level) := by
  intro ts e rest h
  cases n with
  | zero => exact absurd h fail_not_done
  | succ n =>
    obtain ⟨first, mid, hfirst, htails⟩ := bind_done.mp h
    obtain ⟨t, us, r, rfl, -, hoperand⟩ := dispatch_done.mp hfirst
    have hmid := (read_suffix hoperand).length_le
    exact Nat.lt_succ_of_le (Nat.le_trans (read_suffix htails).length_le hmid)

theorem wholeExpression_advances (n : Nat) : Advances (wholeExpression n) := by
  intro ts e rest h
  obtain ⟨_, mid, hexpression, hend⟩ := bind_done.mp h
  exact Nat.lt_of_le_of_lt (read_suffix hend).length_le (expression_advances n _ hexpression)

end Grammar

/-! ### Calls on what is left -/

/-- The error that is answered, if one is. -/
def Answer.error? : Answer → Option SyntaxError
  | .statement (.error e) => some e
  | .wholeExpression (.error e) => some e
  | .endOfInput (.error e) => some e
  | _ => none

/-- Whether a statement or an expression is asked for. -/
def Call.reads : Call → Bool
  | .statement => true
  | .wholeExpression => true
  | _ => false

namespace Parser

variable {p : Parser} {reads : Bool}

def call (limit : Nat) (p : Parser) : Call → Answer × Parser
  | .statement =>
    let (result, after) := p.statement limit
    (.statement result, after)
  | .wholeExpression =>
    let (result, after) := p.wholeExpression limit
    (.wholeExpression result, after)
  | .semicolon =>
    let (taken, after) := p.semicolon
    (.semicolon taken, after)
  | .isAtEnd => (.isAtEnd p.isAtEnd, p)
  | .endOfInput => (.endOfInput p.endOfInput, p)

theorem call_statement (limit : Nat) (p : Parser) :
    p.call limit .statement =
      (.statement (p.run limit (Grammar.statement limit)).1,
        (p.run limit (Grammar.statement limit)).2) := rfl

theorem call_wholeExpression (limit : Nat) (p : Parser) :
    p.call limit .wholeExpression =
      (.wholeExpression (p.run limit (Grammar.wholeExpression limit)).1,
        (p.run limit (Grammar.wholeExpression limit)).2) := rfl

theorem skipTo_self (p : Parser) : p.skipTo p.tokens.length = p := by
  simp [skipTo]

/-! ### What one call does -/

/-- What a call does that leads from `p` to `after`: it goes on to a place further ahead, or
stays.  That is the place of the error that it answers, if it is not about the limit.  If
something has been read there is less left. -/
structure Steps (p : Parser) (reads : Bool) (error? : Option SyntaxError) (after : Parser) :
    Prop where
  ahead : after.tokens.length ≤ p.tokens.length
  place : after = p.skipTo after.tokens.length
  stops : ∀ e ∈ error?, (∀ m, e.problem ≠ .tooDeep m) →
    p.Reports e (p.tokens.length - after.tokens.length)
  progress : reads = true → error? = none → after.tokens.length < p.tokens.length

/-- A call that only looks at the token that comes next. -/
theorem Steps.stay {error? : Option SyntaxError} (h : ∀ e ∈ error?, p.Reports e 0) :
    p.Steps false error? p where
  ahead := Nat.le_refl _
  place := p.skipTo_self.symm
  stops e he _ := by
    rw [Nat.sub_self]
    exact h e he
  progress h := nomatch h

theorem steps_tail : p.Steps false none { p with tokens := p.tokens.tail } where
  ahead := by simp
  place := by
    cases htokens : p.tokens <;> simp [skipTo, htokens]
  stops _ he := nomatch he
  progress h := nomatch h

theorem steps_run {S : Phrases} {r : Reader α} (hr : Viable [] S r) (hadvances : Advances r)
    (answer : Except SyntaxError α → Answer) (hok : ∀ a, (answer (.ok a)).error? = none)
    (herror : ∀ e, (answer (.error e)).error? = some e) :
    p.Steps reads (answer (p.run limit r).1).error? (p.run limit r).2 := by
  cases hread : r.read p.kinds with
  | done a rest =>
    have hlt : rest.length < p.tokens.length := by
      rw [← length_kinds]
      exact hadvances hread
    have hrest := length_skipTo (Nat.le_of_lt hlt)
    rw [run_done hread]
    dsimp only
    rw [hok]
    refine ⟨?_, by rw [hrest], fun _ he => ?_, fun _ _ => ?_⟩
    · rw [hrest]
      exact Nat.le_of_lt hlt
    · cases he
    · rwa [hrest]
  | failed fault rest =>
    have hle : rest.length ≤ p.tokens.length := rest_le hread
    have hrest := length_skipTo hle
    rw [run_failed hread]
    dsimp only
    rw [herror]
    refine ⟨?_, by rw [hrest], fun e he hdeep => ?_, fun _ hnone => ?_⟩
    · rwa [hrest]
    · cases he
      rw [hrest]
      refine reports_of_failed hr hread ?_
      rintro rfl
      exact hdeep limit rfl
    · cases hnone

theorem call_steps (limit : Nat) (p : Parser) (c : Call) :
    p.Steps c.reads (p.call limit c).1.error? (p.call limit c).2 := by
  cases c with
  | statement =>
    rw [call_statement]
    exact steps_run (statement_viable limit) (statement_advances limit) .statement
      (fun _ => rfl) fun _ => rfl
  | wholeExpression =>
    rw [call_wholeExpression]
    exact steps_run (wholeExpression_viable limit) (wholeExpression_advances limit) .wholeExpression
      (fun _ => rfl) fun _ => rfl
  | semicolon =>
    show p.Steps false none p.semicolon.2
    unfold semicolon
    split
    · exact steps_tail
    · exact .stay fun _ h => nomatch h
  | isAtEnd => exact .stay fun _ h => nomatch h
  | endOfInput =>
    refine .stay fun e he => ?_
    change (Answer.endOfInput p.endOfInput).error? = some e at he
    unfold endOfInput at he
    split at he
    · cases he
    · cases he
      exact ⟨Nat.zero_le _, by rw [← next?_eq]; rfl, .inl p.span_eq⟩

end Parser

end QueryCanon
