/-
What the limit on nesting says about the height of a tree.

Chains of operators and of joins are read by loops and meet no limit, so an accepted text may
have a tree of any height (`height_unlimited`).  But only in these chains: between them the
limit allows a fixed number of nodes one below another, and the height is no more than that
many runs of them (`height_limited`).
-/
import QueryCanon.Proofs.Canonical.Shape
import QueryCanon.Proofs.Query.Height

namespace QueryCanon

open Grammar

variable {limit : Nat} {text : String} {q : Query}

/-! ### Chains -/

/-- `a`, and `n` times `AND a` behind it. -/
def conjoined : Nat → Expr
  | 0 => .column ⟨none, "a"⟩
  | n + 1 => .and (conjoined n) (.column ⟨none, "a"⟩)

/-- `SELECT a AND a AND …` -/
def conjoinedQuery (n : Nat) : Query := .ofExpr (conjoined n)

theorem tokens_conjoined (n : Nat) :
    (conjoined (n + 1)).tokens = (conjoined n).tokens ++ [.keyword .AND, .identifier "a"] := by
  cases n <;> rfl

theorem tokens_conjoinedQuery (n : Nat) :
    (conjoinedQuery n).tokens = .keyword .SELECT :: (conjoined n).tokens := by
  rw [conjoinedQuery, Query.ofExpr, Query.ofItems, Query.tokens_eq,
    itemTokens_eq (List.cons_ne_nil _ _)]
  simp [SelectItem.tokens, optionalName, clauseTokens, scopeTokens, byTokens, limitTokens]

theorem isLexical_conjoined (n : Nat) : ∀ t ∈ (conjoined n).tokens, t.IsLexical := by
  have hname : (Token.identifier "a").IsLexical :=
    show Lexeme.IsName "a".toList by decide +kernel
  induction n with
  | zero => exact List.forall_mem_singleton.mpr hname
  | succ n ih =>
    rw [tokens_conjoined]
    exact List.forall_mem_append.mpr ⟨ih, by simpa using ⟨trivial, hname⟩⟩

theorem derives_conjoined (n : Nat) :
    Derives .longest 2 .conjunction (conjoined n).tokens (conjoined n) := by
  have hcolumn : ∀ {n}, Derives .longest (n + 1) (.comparison .closed) [.identifier "a"]
      (.column ⟨none, "a"⟩) := (Derives.column (c := ⟨none, "a"⟩)).operand
  induction n with
  | zero => exact hcolumn.comparison
  | succ n ih =>
    rw [tokens_conjoined]
    exact ih.and hcolumn

theorem derives_conjoinedQuery (n : Nat) :
    Derives .longest 2 .query (conjoinedQuery n).tokens (conjoinedQuery n) := by
  have hitem := (derives_conjoined n).conjunction.expression.bareItem
  have hquery : Derives .longest 2 .query _
      ⟨[⟨conjoined n, none⟩], none, none, none, [], none, [], none⟩ :=
    hitem.one.query .absent .absent .absent
  rw [tokens_conjoinedQuery]
  simpa [conjoinedQuery, Query.ofExpr, Query.ofItems, scopeTokens, byTokens, limitTokens]
    using hquery

/-- Two levels are enough for every chain. -/
theorem parse_conjoinedQuery (n : Nat) :
    parse (conjoinedQuery n).text = .ok (conjoinedQuery n) := by
  have hd : Derives .longest nestingLimit .query (conjoinedQuery n).tokens (conjoinedQuery n) :=
    (derives_conjoinedQuery n).mono (by decide)
  have hlexical : ∀ t ∈ (conjoinedQuery n).tokens, t.IsLexical := by
    rw [tokens_conjoinedQuery]
    exact List.forall_mem_cons.mpr ⟨trivial, isLexical_conjoined n⟩
  obtain ⟨p, hp, htokens⟩ := Parser.ofText_layout hlexical hd.pointed
  have hread := wholeStatement_reads.complete hd
  rw [← htokens] at hread
  rw [Query.text_eq]
  exact readText_of_done hp hread

theorem height_conjoined (n : Nat) : (conjoined n).height 1 = n + 1 := by
  induction n with
  | zero => rfl
  | succ n ih =>
    rw [conjoined, Expr.height, ih]
    simp [Expr.height]

theorem height_conjoinedQuery (n : Nat) : (conjoinedQuery n).height 1 = n + 2 := by
  rw [conjoinedQuery, Query.ofExpr, Query.ofItems, Query.height_eq]
  simp [SelectItem.eachHeight, SelectItem.height, height_conjoined]

/-- No bound holds for the height of all accepted texts. -/
theorem height_unlimited : ¬∃ B, ∀ text q, parse text = .ok q → q.height 1 ≤ B := by
  rintro ⟨B, hB⟩
  have hheight := hB _ _ (parse_conjoinedQuery B)
  rw [height_conjoinedQuery] at hheight
  omega

/-! ### Between the chains -/

/-- The height of a tree that is read within `limit`, where no run is longer than `K`. -/
theorem height_le_of_parseWithin {w K : Nat} (h : parseWithin limit text = .ok q)
    (hruns : ∀ node ∈ q.nodes, node.run w ≤ K) : q.height w ≤ (3 * limit + 3) * (K + 1) := by
  have hfits : ∀ node ∈ q.nodes, node.Fits w K :=
    fun node hnode => ⟨shaped_of_parse h node hnode, hruns node hnode⟩
  exact Nat.le_trans (q.height_le hfits)
    (allowance_mono (levels_le_of_parseWithin h) (Nat.le_refl 3))

/-- Where steps to the left do not count, the limit bounds the height.  Where they count, it
bounds how many runs of them the height is made up of. -/
theorem height_limited (limit : Nat) (text : String) (q : Query)
    (h : parseWithin limit text = .ok q) :
    q.height 0 ≤ 3 * limit + 3 ∧
      ∀ R, (∀ node ∈ q.nodes, node.run 1 ≤ R) → q.height 1 ≤ (3 * limit + 3) * (R + 1) := by
  constructor
  · have hheight := height_le_of_parseWithin (w := 0) (K := 0) h fun node _ =>
      Nat.le_of_eq node.run_zero
    rwa [Nat.zero_add, Nat.mul_one] at hheight
  · exact fun R hruns => height_le_of_parseWithin h hruns

/-- A chain of three, where two levels allow no more than nine nodes between the steps to the
left, and one run of two such steps. -/
theorem height_limited_conjoined :
    parseWithin 2 "select a and a AND a" = .ok (conjoinedQuery 2) ∧
      (conjoinedQuery 2).height 0 ≤ 3 * 2 + 3 ∧
      (∀ node ∈ (conjoinedQuery 2).nodes, node.run 1 ≤ 2) ∧
      (conjoinedQuery 2).height 1 ≤ (3 * 2 + 3) * (2 + 1) := by
  have hparse : parseWithin 2 "select a and a AND a" = .ok (conjoinedQuery 2) :=
    ok_of_toOption (by decide +kernel)
  have hruns : ∀ node ∈ (conjoinedQuery 2).nodes, node.run 1 ≤ 2 := by decide
  obtain ⟨hlevels, hheight⟩ := height_limited 2 _ _ hparse
  exact ⟨hparse, hlevels, hruns, hheight 2 hruns⟩

end QueryCanon
