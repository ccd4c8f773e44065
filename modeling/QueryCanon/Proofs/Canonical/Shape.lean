/-
The shape of what is accepted.

Whatever text a tree is read from, each of its nodes is `Shaped`.  Canonical text leaves
parentheses out on the strength of this.
-/
import QueryCanon.Proofs.Canonical.Reparse
import QueryCanon.Proofs.Grammar.Script
import QueryCanon.Proofs.Grammar.Shape

namespace QueryCanon

variable {limit : Nat} {text : String}

theorem shaped_of_parse {q : Query} (h : parseWithin limit text = .ok q) :
    ∀ node ∈ q.nodes, node.Shaped := by
  obtain ⟨p, rest, -, hdone⟩ := readText_ok h
  obtain ⟨us, -, hd⟩ := Grammar.wholeStatement_reads.sound hdone
  exact hd.fits

theorem shaped_of_parseScript {qs : List Query} (h : parseScriptWithin limit text = .ok qs) :
    ∀ q ∈ qs, ∀ node ∈ q.nodes, node.Shaped := by
  obtain ⟨p, rest, -, hdone⟩ := readText_ok h
  intro q hq
  obtain ⟨us, -, hd⟩ := Grammar.script_sound hdone q hq
  exact hd.fits

theorem shaped_of_parseExpr {e : Expr} (h : parseExprWithin limit text = .ok e) :
    e.isStar = false ∧ ∀ node ∈ e.nodes, node.Shaped := by
  obtain ⟨p, rest, -, hdone⟩ := readText_ok h
  obtain ⟨us, -, hd⟩ := Grammar.wholeExpression_reads.sound hdone
  exact hd.fits

/-- Every node of every tree that is read from a text is shaped, at any depth. -/
theorem accepted_shaped :
    (∀ text q, parse text = .ok q → ∀ node ∈ q.nodes, node.Shaped) ∧
    (∀ text qs, parseScript text = .ok qs → ∀ q ∈ qs, ∀ node ∈ q.nodes, node.Shaped) ∧
    (∀ text e, parseExpr text = .ok e → e.isStar = false ∧ ∀ node ∈ e.nodes, node.Shaped) :=
  ⟨fun _ _ => shaped_of_parse, fun _ _ => shaped_of_parseScript, fun _ _ => shaped_of_parseExpr⟩

/-- `NOT a < 1 AND b = NOT c IN (1) OR NOT NOT EXISTS (SELECT COUNT(*))`: a `NOT` that stays
a node, one that goes into the predicate behind it, and one that belongs to its `EXISTS`. -/
def nestedNots : Expr :=
  let column := fun name => Expr.column ⟨none, name⟩
  let one := Expr.literal (.number "1")
  .or (.and (.not (.compare (column "a") .less one))
      (.compare (column "b") .eq (.inList (column "c") [one] true)))
    (.not (.hasRows (.ofExpr (.call "COUNT" [.star])) true))

/-- `SELECT * FROM t, u JOIN v USING (x) WHERE …` -/
def nestedNotsQuery : Query :=
  let table := fun name => TableRef.mk none name none
  ⟨[⟨.star, none⟩],
    some (.join (.join (.table (table "t")) (.table (table "u")) .cross none)
      (.table (table "v")) .inner (some (.columns ["x"]))),
    none, some nestedNots, [], none, [], none⟩

theorem accepted_shaped_nestedNots :
    (parse ("SELECT * FROM t, u JOIN v USING (x) " ++
        "WHERE NOT a < 1 AND b = NOT c IN (1) OR NOT NOT EXISTS (SELECT COUNT(*))") =
          .ok nestedNotsQuery ∧ ∀ node ∈ nestedNotsQuery.nodes, node.Shaped) ∧
    (parseScript "SELECT COUNT(*);; SELECT COUNT(*)" =
        .ok [.ofExpr (.call "COUNT" [.star]), .ofExpr (.call "COUNT" [.star])] ∧
      ∀ q ∈ [Query.ofExpr (.call "COUNT" [.star]), .ofExpr (.call "COUNT" [.star])],
        ∀ node ∈ q.nodes, node.Shaped) ∧
    (parseExpr "NOT a < 1 AND b = NOT c IN (1) OR NOT NOT EXISTS (SELECT COUNT(*))" =
        .ok nestedNots ∧ nestedNots.isStar = false ∧ ∀ node ∈ nestedNots.nodes, node.Shaped) := by
  have hquery : parse ("SELECT * FROM t, u JOIN v USING (x) " ++
      "WHERE NOT a < 1 AND b = NOT c IN (1) OR NOT NOT EXISTS (SELECT COUNT(*))") =
        .ok nestedNotsQuery := ok_of_toOption (by decide +kernel)
  have hscript : parseScript "SELECT COUNT(*);; SELECT COUNT(*)" =
      .ok [.ofExpr (.call "COUNT" [.star]), .ofExpr (.call "COUNT" [.star])] :=
    ok_of_toOption (by decide +kernel)
  have hexpr : parseExpr "NOT a < 1 AND b = NOT c IN (1) OR NOT NOT EXISTS (SELECT COUNT(*))" =
      .ok nestedNots := ok_of_toOption (by decide +kernel)
  exact ⟨⟨hquery, accepted_shaped.1 _ _ hquery⟩, ⟨hscript, accepted_shaped.2.1 _ _ hscript⟩,
    hexpr, accepted_shaped.2.2 _ _ hexpr⟩

end QueryCanon
