/-
The grouping of expressions that no text gave.

Whatever its shape, an expression is written so that its text can be read, and the text
keeps its grouping but for one thing: a `NOT` over a comparison or a predicate that begins
with `EXISTS` is read as the `NOT` of that `EXISTS`.
-/
import QueryCanon.Proofs.Canonical.Reparse
import QueryCanon.Proofs.Grammar.Writable

namespace QueryCanon

open Grammar (Reads)

/-- A query that some text is read as. -/
def Query.IsRead (q : Query) : Prop := ∃ limit text, parseWithin limit text = .ok q

theorem Query.IsRead.reads {q : Query} (h : q.IsRead) : Reads .query q.tokens q.wrapped := by
  obtain ⟨limit, text, hparse⟩ := h
  obtain ⟨p, rest, hp, hdone⟩ := readText_ok hparse
  obtain ⟨us, -, hd⟩ := Grammar.wholeStatement_reads.sound hdone
  have hlexical := Grammar.wholeStatement_reads.lexical (Parser.isLexical_ofText hp) hdone
  exact ⟨hlexical, _, hd.canonical _ (Nat.le_refl _)⟩

theorem Expr.parse_text {e : Expr} (h : e.Writable Query.IsRead) {limit : Nat}
    (hlimit : e.tokens.length ≤ limit) : parseExprWithin limit e.text = .ok e.reread := by
  obtain ⟨hlexical, n, hd⟩ := (e.rereads (fun _ => Query.IsRead.reads) h).whole
  obtain ⟨p, hp, htokens⟩ := Parser.ofText_layout hlexical hd.pointed
  have hread : (Grammar.wholeExpression limit).read e.tokens = .done e.reread [] :=
    Grammar.wholeExpression_reads.complete (hd.within_length.mono hlimit).expression
  rw [← htokens] at hread
  rw [e.text_eq]
  exact readText_of_done hp hread

/-- The text of an expression reads back, and as an expression of the same grouping exactly
if in none of its operands a `NOT` is captured. -/
theorem grouping_reads_back {e : Expr} (h : e.Writable Query.IsRead) :
    ∃ r, (∀ limit, e.tokens.length ≤ limit → parseExprWithin limit e.text = .ok r) ∧
      (r.normal = e.normal ↔ e.count Expr.capturesNot = 0) :=
  ⟨e.reread, fun _ => Expr.parse_text h, e.normal_reread_iff⟩

/-- `SELECT a` -/
def oneColumn : Query := .ofExpr (.column ⟨none, "a"⟩)

theorem oneColumn_isRead : oneColumn.IsRead :=
  ⟨nestingLimit, "SELECT a", ok_of_toOption (by decide +kernel)⟩

theorem lexical_column {name : String} (h : Lexeme.IsName name.toList) :
    ∀ t ∈ (ColumnRef.mk none name).tokens, t.IsLexical :=
  List.forall_mem_singleton.mpr h

/-- `b AND NOT c = (d IS NULL) AND EXISTS (SELECT a)`, with the second `AND` under the
first, on its right. -/
def rightChain : Expr :=
  .and (.column ⟨none, "b"⟩)
    (.and (.not (.compare (.column ⟨none, "c"⟩) .eq (.isNull (.column ⟨none, "d"⟩) false)))
      (.hasRows oneColumn false))

theorem grouping_reads_back_rightChain :
    rightChain.Writable Query.IsRead ∧ rightChain.count Expr.capturesNot = 0 ∧
      ∃ r, (∀ limit, rightChain.tokens.length ≤ limit →
          parseExprWithin limit rightChain.text = .ok r) ∧
        (r.normal = rightChain.normal ↔ rightChain.count Expr.capturesNot = 0) := by
  have hwritable : rightChain.Writable Query.IsRead :=
    ⟨lexical_column (by decide), ⟨lexical_column (by decide), lexical_column (by decide)⟩,
      oneColumn_isRead⟩
  exact ⟨hwritable, by decide, grouping_reads_back hwritable⟩

/-- The negation of `EXISTS (SELECT a) = 1`, which is written with the `NOT` right before
the `EXISTS`. -/
def negatedRowTest : Expr :=
  .not (.compare (.hasRows oneColumn false) .eq (.literal (.number "1")))

/-- The text reads back, but the `NOT` is then that of the `EXISTS`. -/
theorem negatedRowTest_regrouped :
    negatedRowTest.Writable Query.IsRead ∧ negatedRowTest.text = "NOT EXISTS (SELECT a) = 1" ∧
      ∃ r, (∀ limit, negatedRowTest.tokens.length ≤ limit →
          parseExprWithin limit negatedRowTest.text = .ok r) ∧
        r = .compare (.hasRows oneColumn true) .eq (.literal (.number "1")) ∧
        r.normal ≠ negatedRowTest.normal := by
  have hdigits : ∀ d ∈ "1".toList, d.isDigit = true := List.all_eq_true.mp (by decide)
  have hwritable : negatedRowTest.Writable Query.IsRead := ⟨oneColumn_isRead, by decide, hdigits⟩
  exact ⟨hwritable, by decide +kernel, negatedRowTest.reread,
    fun _ => Expr.parse_text hwritable, rfl, nofun⟩

end QueryCanon
