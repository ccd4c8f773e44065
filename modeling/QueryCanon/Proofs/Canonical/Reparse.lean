/-
Canonical text, read again.

The text of an accepted query reads back as the wrapped query, whatever the limit, unless
the limit is met; and it is met exactly if the wrapped query has more levels than it
allows.  The same holds of an expression.
-/
import QueryCanon.Canonical
import QueryCanon.Query.Equality
import QueryCanon.Proofs.Query.Text
import QueryCanon.Proofs.Grammar.Rereading

namespace QueryCanon

open Grammar (Reader ReadsWhole Symbol)

variable {α β ε : Type} {limit : Nat} {text : String}

theorem ok_of_toOption {x : Except ε α} {a : α} (h : x.toOption = some a) : x = .ok a := by
  cases x with
  | error e => cases h
  | ok b =>
    cases h
    rfl

theorem exists_of_map_ok {x : Except ε α} {f : α → β} {b : β} (h : x.map f = .ok b) :
    ∃ a, x = .ok a ∧ f a = b := by
  cases x with
  | error e => cases h
  | ok a =>
    cases h
    exact ⟨a, rfl, rfl⟩

theorem readText_ok {r : Reader α} {a : α} (h : readText limit r text = .ok a) :
    ∃ p rest, Parser.ofText text = .ok p ∧ r.read (p.tokens.map (·.token)) = .done a rest := by
  unfold readText at h
  split at h
  · cases h
  · next p hp =>
    refine ⟨p, ?_⟩
    unfold Parser.run at h
    cases hread : r.read (p.tokens.map (·.token)) with
    | failed fault rest =>
      rw [hread] at h
      cases h
    | done b rest =>
      rw [hread] at h
      cases h
      exact ⟨rest, hp, rfl⟩

theorem readText_of_done {r : Reader α} {a : α} {p : Parser} {rest : List Token}
    (hp : Parser.ofText text = .ok p) (h : r.read (p.tokens.map (·.token)) = .done a rest) :
    readText limit r text = .ok a := by
  rw [readText, hp]
  dsimp only
  rw [Parser.run, h]

theorem readText_of_tooDeep {r : Reader α} {p : Parser} {rest : List Token}
    (hp : Parser.ofText text = .ok p)
    (h : r.read (p.tokens.map (·.token)) = .failed .tooDeep rest) :
    ∃ span, readText limit r text = .error (.grammatical ⟨.tooDeep limit, span⟩) := by
  refine ⟨(p.skipTo rest.length).span, ?_⟩
  rw [readText, hp]
  dsimp only
  rw [Parser.run, h]
  rfl

/-- Under every limit the text reads back as `a`, or else meets the limit; it meets those
that are smaller than `levels`. -/
structure ReadsBack (parseWithin : Nat → String → Except ParseError α) (text : String) (a : α)
    (levels : Nat) : Prop where
  enough : ∀ limit, levels ≤ limit → parseWithin limit text = .ok a
  tooDeep : ∀ limit, limit < levels →
    ∃ span, parseWithin limit text = .error (.grammatical ⟨.tooDeep limit, span⟩)

theorem Grammar.ReadsWhole.readsBack {s : Symbol} {r : Nat → Reader s.Value} {v : s.Value}
    (h : ReadsWhole s r) (hread : readText limit (r limit) text = .ok v) :
    ReadsBack (fun m => readText m (r m)) (Layout.text (s.tokens v)) (s.wrapped v)
      (s.levels (s.wrapped v)) := by
  obtain ⟨p, rest, hp, hdone⟩ := readText_ok hread
  obtain ⟨p', hp', htokens⟩ := h.ofText (Parser.isLexical_ofText hp) hdone
  constructor
  · intro m hm
    have hagain := h.reread hdone hm
    rw [← htokens] at hagain
    exact readText_of_done hp' hagain
  · intro m hm
    obtain ⟨left, hdeep⟩ := h.reread_tooDeep hdone hm
    rw [← htokens] at hdeep
    exact readText_of_tooDeep hp' hdeep

/-- The canonical text of a query that was read from lexical tokens makes the tokens of it. -/
theorem Query.ofText_text {q : Query} {n : Nat} {ts rest : List Token}
    (hts : ∀ t ∈ ts, t.IsLexical) (h : (Grammar.wholeStatement n).read ts = .done q rest) :
    ∃ p, Parser.ofText q.text = .ok p ∧ p.tokens.map (·.token) = q.tokens := by
  rw [q.text_eq]
  exact Grammar.wholeStatement_reads.ofText hts h

/-- What is accepted has no more levels than the limit. -/
theorem levels_le_of_parseWithin {q : Query} (h : parseWithin limit text = .ok q) :
    q.levels ≤ limit := by
  obtain ⟨p, rest, hp, hdone⟩ := readText_ok h
  obtain ⟨us, -, hd⟩ := Grammar.wholeStatement_reads.sound hdone
  exact hd.levels_le

theorem levels_le_of_parse {q : Query} (h : parse text = .ok q) : q.levels ≤ nestingLimit :=
  levels_le_of_parseWithin h

theorem parse_readsBack {q : Query} (h : parse text = .ok q) :
    ReadsBack parseWithin q.text q.wrapped q.wrapped.levels := by
  rw [q.text_eq]
  exact Grammar.wholeStatement_reads.readsBack h

theorem parseExpr_readsBack {e : Expr} (h : parseExpr text = .ok e) :
    ReadsBack parseExprWithin e.text e.wrapped e.wrapped.levels := by
  rw [e.text_eq]
  exact Grammar.wholeExpression_reads.readsBack h

theorem Query.text_wrapped (q : Query) : q.wrapped.text = q.text := by
  rw [Query.text_eq, Query.text_eq, Query.tokens_wrapped]

theorem Expr.text_wrapped (e : Expr) : e.wrapped.text = e.text := by
  rw [Expr.text_eq, Expr.text_eq, Expr.tokens_wrapped]

/-- What is accepted reads back from its canonical text as the wrapped tree, which has the
same text.  Only the limit on nesting can stand in the way. -/
theorem accepted_reads_back :
    (∀ text q, parse text = .ok q →
      ReadsBack parseWithin q.text q.wrapped q.wrapped.levels ∧ q.wrapped.text = q.text) ∧
    (∀ text e, parseExpr text = .ok e →
      ReadsBack parseExprWithin e.text e.wrapped e.wrapped.levels ∧ e.wrapped.text = e.text) :=
  ⟨fun _ q h => ⟨parse_readsBack h, q.text_wrapped⟩,
    fun _ e h => ⟨parseExpr_readsBack h, e.text_wrapped⟩⟩

/-- `b = NOT c = d OR e`, which is written `b = (c <> d) OR e`. -/
def negatedOperand : Expr :=
  .or (.compare (.column ⟨none, "b"⟩) .eq
    (.compare (.column ⟨none, "c"⟩) .notEq (.column ⟨none, "d"⟩))) (.column ⟨none, "e"⟩)

/-- `SELECT a WHERE b = NOT c = d OR e`, which is written with the whole condition in
parentheses. -/
def negatedOperandQuery : Query :=
  ⟨[⟨.column ⟨none, "a"⟩, none⟩], none, none, some negatedOperand, [], none, [], none⟩

theorem accepted_reads_back_negatedOperand :
    parse "SELECT a WHERE b = NOT c = d OR e" = .ok negatedOperandQuery ∧
    (ReadsBack parseWithin negatedOperandQuery.text negatedOperandQuery.wrapped
        negatedOperandQuery.wrapped.levels ∧
      negatedOperandQuery.wrapped.text = negatedOperandQuery.text) ∧
    parseExpr "b = NOT c = d OR e" = .ok negatedOperand ∧
    (ReadsBack parseExprWithin negatedOperand.text negatedOperand.wrapped
        negatedOperand.wrapped.levels ∧
      negatedOperand.wrapped.text = negatedOperand.text) := by
  have hquery : parse "SELECT a WHERE b = NOT c = d OR e" = .ok negatedOperandQuery :=
    ok_of_toOption (by decide +kernel)
  have hexpr : parseExpr "b = NOT c = d OR e" = .ok negatedOperand :=
    ok_of_toOption (by decide +kernel)
  exact ⟨hquery, accepted_reads_back.1 _ _ hquery, hexpr, accepted_reads_back.2 _ _ hexpr⟩

end QueryCanon
