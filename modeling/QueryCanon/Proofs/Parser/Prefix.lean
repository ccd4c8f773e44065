/-
No error comes too late.

When a text is no query, the parser reports the first token that cannot follow the ones
before it, or an earlier one: what stands before the reported token is the beginning of a
text that the same function reads, if the limit on nesting is lifted.
-/
import QueryCanon.Canonical
import QueryCanon.Proofs.Grammar.Completion
import QueryCanon.Proofs.Parser.Report
import QueryCanon.Query.Equality

namespace QueryCanon

open Grammar

variable {α : Type} {limit : Nat} {text : String} {e : SyntaxError} {r : Nat → Reader α}

/-- Some text begins with the first `k` tokens of `p`, and without a limit `r` reads it. -/
def Parser.Completable (p : Parser) (r : Nat → Reader α) (k : Nat) : Prop :=
  ∃ text p', Parser.ofText text = .ok p' ∧ p.kinds.take k <+: p'.kinds ∧ Accepts r p'.kinds

/-- The error reports one token of the text, and what stands before it can be completed. -/
def InTime (r : Nat → Reader α) (text : String) (e : SyntaxError) : Prop :=
  ∃ p, Parser.ofText text = .ok p ∧ ∃ k, (∀ j, p.Reports e j ↔ j = k) ∧ p.Completable r k

theorem Parser.run_error {r : Reader α} {p : Parser} (h : (p.run limit r).1 = .error e) :
    ∃ fault rest, r.read p.kinds = .failed fault rest ∧
      e = p.locate limit (p.skipTo rest.length) fault := by
  cases hread : r.read p.kinds with
  | done a rest =>
    rw [run_done hread] at h
    cases h
  | failed fault rest =>
    rw [run_failed hread] at h
    cases h
    exact ⟨fault, rest, rfl, rfl⟩

theorem readText_grammatical {r : Reader α} (h : readText limit r text = .error (.grammatical e)) :
    ∃ p, Parser.ofText text = .ok p ∧ (p.run limit r).1 = .error e := by
  unfold readText at h
  split at h
  · cases h
  · next p hp =>
    split at h
    · next e' he =>
      cases h
      exact ⟨p, hp, he⟩
    · cases h

theorem Grammar.CompletedBy.completable {p : Parser} {used more rest : List Token}
    (h : CompletedBy r used more) (hp : Parser.ofText text = .ok p)
    (hkinds : p.kinds = used ++ rest) : p.Completable r used.length := by
  have hlexical : ∀ t ∈ p.kinds, t.IsLexical := Parser.isLexical_ofText hp
  rw [hkinds] at hlexical
  have hused := (List.forall_mem_append.mp hlexical).1
  obtain ⟨p', hp', htokens⟩ :=
    Parser.ofText_layout (List.forall_mem_append.mpr ⟨hused, h.lexical⟩) h.pointed
  change p'.kinds = used ++ more at htokens
  refine ⟨_, p', hp', ?_, htokens ▸ h.accepts⟩
  rw [hkinds, htokens, List.take_left]
  exact List.prefix_append used more

theorem Grammar.FailsViably.inTime (hr : FailsViably r)
    (h : readText limit (r limit) text = .error (.grammatical e))
    (hdeep : ∀ m, e.problem ≠ .tooDeep m) : InTime r text e := by
  obtain ⟨p, hp, herror⟩ := readText_grammatical h
  obtain ⟨fault, rest, hread, rfl⟩ := Parser.run_error herror
  have hfault : fault ≠ .tooDeep := by
    rintro rfl
    exact hdeep limit rfl
  obtain ⟨used, more, hkinds, hmore, hamong⟩ := hr hread hfault
  have hreports : p.Reports (p.locate limit (p.skipTo rest.length) fault) used.length :=
    Parser.reports_locate hkinds hfault hamong
  refine ⟨p, hp, used.length, fun j => ⟨fun hj => ?_, ?_⟩, hmore.completable hp hkinds⟩
  · exact hj.unique hreports (Parser.ordered_ofText hp)
  · rintro rfl
    exact hreports

/-- Whatever text is read with whatever limit, no error comes later than at the first token
that leaves no hope for the text, but for the one about the limit. -/
theorem errors_inTime (hdeep : ∀ m, e.problem ≠ .tooDeep m) :
    (parseWithin limit text = .error (.grammatical e) → InTime wholeStatement text e) ∧
      (parseScriptWithin limit text = .error (.grammatical e) → InTime script text e) ∧
      (parseExprWithin limit text = .error (.grammatical e) → InTime wholeExpression text e) :=
  ⟨fun h => wholeStatement_failsViably.inTime h hdeep, fun h => script_failsViably.inTime h hdeep,
    fun h => wholeExpression_failsViably.inTime h hdeep⟩

/-- A join before its condition, a query behind a name too many, and a call with two parentheses
that are not closed. -/
theorem errors_inTime_unfinished :
    InTime wholeStatement "SELECT a FROM t JOIN u WHERE"
        ⟨.unexpected .joinCondition (some (.keyword .WHERE)), ⟨23, 28⟩⟩ ∧
      InTime script "SELECT a; SELECT b FROM c d e"
        ⟨.unexpected .endOfInput (some (.identifier "e")), ⟨28, 29⟩⟩ ∧
      InTime wholeExpression "f((a OR b LIKE 'c'" ⟨.unexpected (.closing 2) none, ⟨2, 18⟩⟩ := by
  have hstatement : parseWithin 5 "SELECT a FROM t JOIN u WHERE" =
      .error (.grammatical ⟨.unexpected .joinCondition (some (.keyword .WHERE)), ⟨23, 28⟩⟩) := by
    decide +kernel
  have hscript : parseScriptWithin 5 "SELECT a; SELECT b FROM c d e" =
      .error (.grammatical ⟨.unexpected .endOfInput (some (.identifier "e")), ⟨28, 29⟩⟩) := by
    decide +kernel
  have hexpression : parseExprWithin 5 "f((a OR b LIKE 'c'" =
      .error (.grammatical ⟨.unexpected (.closing 2) none, ⟨2, 18⟩⟩) := by
    decide +kernel
  exact ⟨(errors_inTime (by nofun)).1 hstatement, (errors_inTime (by nofun)).2.1 hscript,
    (errors_inTime (by nofun)).2.2 hexpression⟩

end QueryCanon
