/-
The tree of a script, as JSON text, loses nothing.

From the text alone the document is read back, and from the document the queries.  So two
scripts have the same text exactly if they have the same queries.
-/
import QueryCanon.Command.Process
import QueryCanon.Proofs.Canonical.Reparse
import QueryCanon.Proofs.Json.Reading
import QueryCanon.Proofs.Query.Decoding

namespace QueryCanon

variable {text x y name name' : String} {qs qs' : List Query}

/-- The queries that a document tells of. -/
def scriptOfJson? : Json → Option (List Query)
  | .array statements => statements.mapM Query.ofStatementJson?
  | _ => none

theorem Query.ofStatementJson?_statementJson (q : Query) :
    Query.ofStatementJson? q.statementJson = some q := by
  rw [Query.statementJson, Json.tagged, Query.ofStatementJson?, q.ofJson?_toJson]

theorem scriptOfJson?_scriptJson (qs : List Query) : scriptOfJson? (scriptJson qs) = some qs :=
  mapM_map Query.ofStatementJson?_statementJson qs

/-- The text tells the queries. -/
theorem pretty_scriptJson_injective (h : (scriptJson qs).pretty = (scriptJson qs').pretty) :
    qs = qs' := by
  have hdocument : some (scriptJson qs) = some (scriptJson qs') := by
    rw [← Json.read?_pretty, ← Json.read?_pretty, h]
  have hqueries : some qs = some qs' := by
    rw [← scriptOfJson?_scriptJson, ← scriptOfJson?_scriptJson, Option.some.inj hdocument]
  exact Option.some.inj hqueries

theorem astText_eq_iff (hx : parseScript x = .ok qs) (hy : parseScript y = .ok qs') :
    astText x name = astText y name' ↔ parseScript x = parseScript y := by
  rw [astText_eq hx, astText_eq hy, hx, hy, Except.ok.injEq, Except.ok.injEq]
  exact ⟨pretty_scriptJson_injective, congrArg fun queries => (scriptJson queries).pretty⟩

/-- Every script that is read has a JSON text, from which its document is read back, and its
queries from that. Two scripts have the same text exactly if they have the same queries; then
they have the same canonical form. -/
theorem astText_lossless :
    (∀ text name qs, parseScript text = .ok qs → ∃ document : Json,
      astText text name = .ok document.pretty ∧ Json.read? document.pretty = some document ∧
        scriptOfJson? document = some qs) ∧
    (∀ x y name name' qs qs', parseScript x = .ok qs → parseScript y = .ok qs' →
      (astText x name = astText y name' ↔ parseScript x = parseScript y) ∧
        (astText x name = astText y name' → format x = format y)) := by
  refine ⟨fun text name qs h => ?_, fun x y name name' qs qs' hx hy => ?_⟩
  · exact ⟨scriptJson qs, astText_eq h name, Json.read?_pretty _, scriptOfJson?_scriptJson qs⟩
  · refine ⟨astText_eq_iff hx hy, fun h => ?_⟩
    rw [format_eq, format_eq, (astText_eq_iff hx hy).mp h]

/-- `SELECT COUNT(*), 'é"\…' FROM t WHERE (a) IN ('')`, where the string has a control character
at its end. -/
def quotingQuery : Query :=
  ⟨[⟨.call "COUNT" [.star], none⟩, ⟨.literal (.string "é\"\\\x01"), none⟩],
    some (.table ⟨none, "t", none⟩), none,
    some (.inList (.paren (.column ⟨none, "a"⟩)) [.literal (.string "")] false), [], none, [], none⟩

/-- Two layouts of a query whose strings have to be escaped. -/
theorem astText_lossless_quoting :
    (parseScript "SELECT COUNT(*), 'é\"\\\x01' FROM t WHERE (a) IN ('')" = .ok [quotingQuery] ∧
      ∃ document : Json,
        astText "SELECT COUNT(*), 'é\"\\\x01' FROM t WHERE (a) IN ('')" "a.sql" =
            .ok document.pretty ∧
          Json.read? document.pretty = some document ∧
          scriptOfJson? document = some [quotingQuery]) ∧
    (parseScript ";select COUNT ( * ) , 'é\"\\\x01' from t where ( a ) in ( '' ) ;" =
        .ok [quotingQuery] ∧
      (astText "SELECT COUNT(*), 'é\"\\\x01' FROM t WHERE (a) IN ('')" "a.sql" =
          astText ";select COUNT ( * ) , 'é\"\\\x01' from t where ( a ) in ( '' ) ;" "b.sql" ↔
        parseScript "SELECT COUNT(*), 'é\"\\\x01' FROM t WHERE (a) IN ('')" =
          parseScript ";select COUNT ( * ) , 'é\"\\\x01' from t where ( a ) in ( '' ) ;") ∧
      (astText "SELECT COUNT(*), 'é\"\\\x01' FROM t WHERE (a) IN ('')" "a.sql" =
          astText ";select COUNT ( * ) , 'é\"\\\x01' from t where ( a ) in ( '' ) ;" "b.sql" →
        format "SELECT COUNT(*), 'é\"\\\x01' FROM t WHERE (a) IN ('')" =
          format ";select COUNT ( * ) , 'é\"\\\x01' from t where ( a ) in ( '' ) ;")) := by
  have hx : parseScript "SELECT COUNT(*), 'é\"\\\x01' FROM t WHERE (a) IN ('')" =
      .ok [quotingQuery] := ok_of_toOption (by decide +kernel)
  have hy : parseScript ";select COUNT ( * ) , 'é\"\\\x01' from t where ( a ) in ( '' ) ;" =
      .ok [quotingQuery] := ok_of_toOption (by decide +kernel)
  exact ⟨⟨hx, astText_lossless.1 _ _ _ hx⟩, hy, astText_lossless.2 _ _ _ _ _ _ hx hy⟩

end QueryCanon
