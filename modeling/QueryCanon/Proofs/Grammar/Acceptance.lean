/-
The parser accepts exactly its grammar, and gives the tree of the reading in which every
`NOT` reaches as far as it can.

The limit on nesting is set aside by taking one that is no smaller than the number of
tokens: no text of the grammar nests deeper than that (`Derives.within_length`).
-/
import QueryCanon.Parser
import QueryCanon.Proofs.Grammar.Ambiguity
import QueryCanon.Proofs.Grammar.Limit
import QueryCanon.Proofs.Grammar.Soundness
import QueryCanon.Query.Equality

namespace QueryCanon

open Grammar

/-- From `p` a query is read that nothing follows. -/
def Parser.ReadsWhole (limit : Nat) (p : Parser) (q : Query) : Prop :=
  ∃ after, p.statement limit = (.ok q, after) ∧ after.endOfInput = .ok ()

/-- Nothing is left behind the end of what was read. -/
theorem Parser.endOfInput_skipTo {p : Parser} {left : Nat} (h : left ≤ p.tokens.length) :
    (p.skipTo left).endOfInput = .ok () ↔ left = 0 := by
  have hempty : (p.skipTo left).isAtEnd = true ↔ left = 0 := by
    simp only [isAtEnd, skipTo, List.isEmpty_iff, List.drop_eq_nil_iff]
    omega
  unfold endOfInput
  by_cases hzero : left = 0
  · rw [if_pos (hempty.mpr hzero)]
    simp [hzero]
  · rw [if_neg (mt hempty.mp hzero)]
    simp [hzero]

theorem Parser.readsWhole_iff {limit : Nat} {p : Parser} {q : Query} :
    p.ReadsWhole limit q ↔
      (Grammar.statement limit).read (p.tokens.map (·.token)) = .done q [] := by
  unfold ReadsWhole Parser.statement Parser.run
  cases hread : (Grammar.statement limit).read (p.tokens.map (·.token)) with
  | failed fault rest => simp
  | done a rest =>
    have hlength : rest.length ≤ p.tokens.length := by
      simpa using (read_suffix hread).length_le
    simp only [Prod.mk.injEq, Except.ok.injEq, Outcome.done.injEq, and_assoc]
    constructor
    · rintro ⟨_, rfl, rfl, hend⟩
      exact ⟨rfl, List.length_eq_zero_iff.mp ((endOfInput_skipTo hlength).mp hend)⟩
    · rintro ⟨rfl, rfl⟩
      exact ⟨_, rfl, rfl, (endOfInput_skipTo hlength).mpr rfl⟩

namespace Grammar

variable {n : Nat} {ts rest : List Token} {q : Query}

theorem statement_done_iff (limit : Nat) (hlength : ts.length ≤ limit) :
    (statement limit).read ts = .done q [] ↔ ∃ n, Derives .longest n .query ts q := by
  constructor
  · intro hread
    obtain ⟨used, rfl, hd⟩ := statement_sound limit hread
    exact ⟨limit, by simpa using hd⟩
  · rintro ⟨n, hd⟩
    have hread := (hd.within_length.mono hlength).completes [] (clear_nil _)
    rwa [List.append_nil] at hread

/-- The tokens have no more than one tree. -/
theorem Derives.query_unique {m : Nat} {q' : Query} (h : Derives .longest n .query ts q)
    (h' : Derives .longest m .query ts q') : q = q' := by
  have hread := (statement_done_iff ts.length (Nat.le_refl _)).mpr ⟨n, h⟩
  have hread' := (statement_done_iff ts.length (Nat.le_refl _)).mpr ⟨m, h'⟩
  rw [hread] at hread'
  cases hread'
  rfl

theorem exists_joined_iff :
    (∃ n q, Derives .joined n .query ts q) ↔ ∃ n q, Derives .longest n .query ts q := by
  constructor
  · rintro ⟨n, q, hd⟩
    exact hd.reached
  · rintro ⟨n, q, hd⟩
    exact ⟨n, q, hd.joined_of_longest⟩

end Grammar

/-- With no limit met, reading succeeds exactly on what the grammar derives, and comes to
the one tree in which every `NOT` reaches as far as it can. -/
theorem Parser.readsWhole_iff_derives (p : Parser) (limit : Nat) (h : p.tokens.length ≤ limit) :
    ((∃ q, p.ReadsWhole limit q) ↔
      ∃ n q, Derives .joined n .query (p.tokens.map (·.token)) q) ∧
    ∀ q, p.ReadsWhole limit q ↔ ∃ n, Derives .longest n .query (p.tokens.map (·.token)) q := by
  have hlength : (p.tokens.map (·.token)).length ≤ limit := by simpa using h
  have htree : ∀ q, p.ReadsWhole limit q ↔
      ∃ n, Derives .longest n .query (p.tokens.map (·.token)) q :=
    fun q => Parser.readsWhole_iff.trans (statement_done_iff limit hlength)
  refine ⟨?_, htree⟩
  rw [exists_joined_iff, exists_comm]
  exact exists_congr htree

/-- The tokens without their places, as what is left of a text. -/
def Parser.ofTokens (ts : List Token) : Parser := ⟨ts.map (⟨·, .point 0⟩), 0⟩

theorem Parser.tokens_ofTokens (ts : List Token) : (ofTokens ts).tokens.map (·.token) = ts := by
  simp [ofTokens, Function.comp_def]

/-- `SELECT a WHERE NOT x BETWEEN 1 AND 2 = y` -/
def negatedTails : List Token :=
  [.keyword .SELECT, .identifier "a", .keyword .WHERE, .keyword .NOT, .identifier "x",
    .keyword .BETWEEN, .integer "1", .keyword .AND, .integer "2", .eq, .identifier "y"]

/-- The query of it, with the one tail negated or with the other. -/
def negatedTailsQuery (negated : Bool) (op : Comparison) : Query :=
  let range := Expr.between (.column ⟨none, "x"⟩) (.literal (.number "1")) (.literal (.number "2"))
  ⟨[⟨.column ⟨none, "a"⟩, none⟩], none, none,
    some (.compare (range negated) op (.column ⟨none, "y"⟩)), [], none, [], none⟩

/-- The `NOT` reaches over both tails, so it is the second that takes it up. -/
theorem Parser.readsWhole_iff_derives_negatedTails :
    (ofTokens negatedTails).tokens.length ≤ 11 ∧
      ((∃ q, (ofTokens negatedTails).ReadsWhole 11 q) ↔
        ∃ n q, Derives .joined n .query negatedTails q) ∧
      (∃ n, Derives .longest n .query negatedTails (negatedTailsQuery false .notEq)) ∧
      ¬∃ n, Derives .longest n .query negatedTails (negatedTailsQuery true .eq) := by
  have hread : (Grammar.statement 11).read negatedTails =
      .done (negatedTailsQuery false .notEq) [] := by
    decide +kernel
  have hother : (Grammar.statement 11).read negatedTails ≠
      .done (negatedTailsQuery true .eq) [] := by
    decide +kernel
  have hlength : (ofTokens negatedTails).tokens.length ≤ 11 := by decide
  obtain ⟨haccepts, htree⟩ := Parser.readsWhole_iff_derives (ofTokens negatedTails) 11 hlength
  simp only [readsWhole_iff, tokens_ofTokens] at htree
  rw [tokens_ofTokens] at haccepts
  exact ⟨hlength, haccepts, (htree _).mp hread, mt (htree _).mpr hother⟩

/-- `SELECT a WHERE x BETWEEN NOT EXISTS (SELECT b) = 1 AND c` -/
def dividedExists : List Token :=
  [.keyword .SELECT, .identifier "a", .keyword .WHERE, .identifier "x", .keyword .BETWEEN,
    .keyword .NOT, .keyword .EXISTS, .leftParen, .keyword .SELECT, .identifier "b", .rightParen,
    .eq, .integer "1", .keyword .AND, .identifier "c"]

/-- Here the lower bound is the negation of `EXISTS (SELECT b) = 1`, which is a phrase as
long as `NOT` may stand before any comparison.  But `NOT EXISTS (SELECT b)` is read as one
operand, and then `=` stands where only `AND` can. -/
theorem Parser.dividedExists_not_read :
    (∃ n q, Derives .free n .query dividedExists q) ∧
      ∀ limit q, ¬ (Parser.ofTokens dividedExists).ReadsWhole limit q := by
  constructor
  · have hcolumn : ∀ n name, Derives .free (n + 1) (.operand .closed) [.identifier name]
        (.column ⟨none, name⟩) := fun n name => .column (c := ⟨none, name⟩)
    have hselect : ∀ n name {ts filter},
        Derives .free (n + 1) (.clause .WHERE .condition) ts filter →
        Derives .free (n + 1) .query (.keyword .SELECT :: .identifier name :: ts)
          ⟨[⟨.column ⟨none, name⟩, none⟩], none, none, filter, [], none, [], none⟩ := by
      intro n name ts filter hfilter
      have hitem : Derives .free (n + 1) .item ([.identifier name] ++ optionalName none) _ :=
        .item (hcolumn n name).operand.comparison.conjunction.expression
      have hquery : Derives .free (n + 1) .query _
          ⟨[⟨.column ⟨none, name⟩, none⟩], none, none, filter, [], none, [], none⟩ :=
        .query hitem.one .absent hfilter .absent
      simpa [optionalName, scopeTokens, byTokens, limitTokens] using hquery
    have hadmits : ∀ ending, Choice.free.Admits ending := fun _ h => absurd h (by decide)
    have hequal : Derives .free 2 (.tail .closed) [Comparison.eq.token, .integer "1"]
        (.compare .eq (.literal (.number "1"))) := .compare (.literal (.integer "1"))
    have hlow : Derives .free 3 (.operand .ajar) _ _ :=
      .not (.tail (.operand (.hasRows (hselect 0 "b" .absent))) (hadmits _) hequal)
        fun h => absurd rfl h
    have hbetween : Derives .free 4 (.tail .closed) _ (.between _ _ false) :=
      .between hlow (hcolumn 2 "c")
    have hfilter : Derives .free 4 (.clause .WHERE .condition) _ _ :=
      .present (.condition (.expression (.conjunction (.comparison
        (.tail (hcolumn 3 "x").operand (hadmits _) hbetween)))))
    exact ⟨4, _, hselect 3 "a" hfilter⟩
  · intro limit q hq
    have hread := Parser.readsWhole_iff.mp hq
    rw [Parser.tokens_ofTokens] at hread
    have hfault : ((Grammar.statement 9).read dividedExists).fault? =
        some (.expected (.keyword .AND)) := by decide +kernel
    have hfault' := (statement_capped (Nat.le_max_left 9 limit)).fault?_eq hfault (by simp)
    have hread' := (statement_capped (Nat.le_max_right 9 limit)).read_mono hread
    rw [hread'] at hfault'
    cases hfault'

end QueryCanon
