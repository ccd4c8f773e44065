/-
The place that an error reports.

An error that the grammar finds is about one token, or about the end of the text: what it
says was found stands there, and it has that place, from the parenthesis on that is missing
its other half if there is one.  In a text no two tokens end at one byte, so the error tells
which one it is about.
-/
import QueryCanon.Parser
import QueryCanon.Proofs.Grammar.Viable
import QueryCanon.Proofs.Lexical.Tiling

namespace QueryCanon

open Grammar

variable {α : Type} {limit i j k left : Nat} {p : Parser} {e : SyntaxError}

namespace Parser

/-! ### Places -/

theorem length_kinds (p : Parser) : p.kinds.length = p.tokens.length := List.length_map _

theorem kinds_skipTo (p : Parser) (left : Nat) :
    (p.skipTo left).kinds = p.kinds.drop (p.tokens.length - left) := List.map_drop

theorem next?_eq (p : Parser) : p.next? = p.tokenAt? 0 := by
  rw [next?, tokenAt?, kinds, List.getElem?_map, List.head?_eq_getElem?]

theorem span_eq (p : Parser) : p.span = p.spanAt 0 := by
  unfold span spanAt
  cases p.tokens <;> rfl

theorem next?_skipTo (p : Parser) (left : Nat) :
    (p.skipTo left).next? = p.tokenAt? (p.tokens.length - left) := by
  rw [next?_eq, tokenAt?, kinds_skipTo, List.getElem?_drop, Nat.add_zero, tokenAt?]

theorem span_skipTo (p : Parser) (left : Nat) :
    (p.skipTo left).span = p.spanAt (p.tokens.length - left) := by
  rw [span_eq, spanAt, skipTo, List.getElem?_drop, Nat.add_zero, spanAt]

theorem length_skipTo (h : left ≤ p.tokens.length) : (p.skipTo left).tokens.length = left := by
  rw [skipTo, List.length_drop]
  omega

/-- What is left after a reading is the end of what was left before it. -/
theorem rest_le {r : Reader α} {o : Outcome α} (h : r.read p.kinds = o) :
    o.rest.length ≤ p.tokens.length := by
  have hsuffix := r.suffix p.kinds
  rw [h] at hsuffix
  rw [← length_kinds]
  exact hsuffix.length_le

section

variable {used rest : List Token} (hkinds : p.kinds = used ++ rest)
include hkinds

theorem length_of_kinds : p.tokens.length = used.length + rest.length := by
  rw [← length_kinds, hkinds, List.length_append]

/-- Behind `used` the parser stands at the token that comes next. -/
theorem next?_behind_used : (p.skipTo rest.length).next? = p.tokenAt? used.length := by
  rw [next?_skipTo, length_of_kinds hkinds, Nat.add_sub_cancel]

theorem span_behind_used : (p.skipTo rest.length).span = p.spanAt used.length := by
  rw [span_skipTo, length_of_kinds hkinds, Nat.add_sub_cancel]

end

/-! ### Reports -/

/-- `e` reports that the parser cannot go on at the token behind the first `k`. -/
structure Reports (p : Parser) (e : SyntaxError) (k : Nat) : Prop where
  within : k ≤ p.tokens.length
  found : e.problem.found? = some (p.tokenAt? k)
  span : e.span = p.spanAt k ∨
    ∃ i < k, p.tokenAt? i = some .leftParen ∧ e.span = (p.spanAt i).merge (p.spanAt k)

/-- A parenthesis is not closed where the parser stands behind `outer`, it and `inner`. -/
theorem locate_unclosed {outer inner rest : List Token}
    (hkinds : p.kinds = outer ++ .leftParen :: inner ++ rest) :
    p.locate limit (p.skipTo rest.length) (.unclosed ((inner ++ rest).length + 1)) =
      ⟨.unexpected (.closing (p.spanAt outer.length).start)
          (p.tokenAt? (outer ++ .leftParen :: inner).length),
        (p.spanAt outer.length).merge (p.spanAt (outer ++ .leftParen :: inner).length)⟩ := by
  have hopened : p.kinds = outer ++ .leftParen :: (inner ++ rest) := by simp [hkinds]
  have hparen : (p.skipTo ((inner ++ rest).length + 1)).span = p.spanAt outer.length :=
    span_behind_used hopened
  simp only [locate, hparen, next?_behind_used hkinds, span_behind_used hkinds]

/-- What a fault comes to as an error. -/
theorem reports_locate {fault : Fault} {used rest : List Token} (hkinds : p.kinds = used ++ rest)
    (hdeep : fault ≠ .tooDeep) (hamong : fault.Among used rest) :
    p.Reports (p.locate limit (p.skipTo rest.length) fault) used.length := by
  have hwithin : used.length ≤ p.tokens.length := by
    rw [length_of_kinds hkinds]
    exact Nat.le_add_right _ _
  cases fault with
  | tooDeep => exact absurd rfl hdeep
  | expected wanted =>
    exact ⟨hwithin, congrArg some (next?_behind_used hkinds), .inl (span_behind_used hkinds)⟩
  | unclosed opened =>
    obtain ⟨outer, inner, rfl, rfl⟩ := hamong
    rw [locate_unclosed hkinds]
    refine ⟨hwithin, rfl, .inr ⟨outer.length, by simp, ?_, rfl⟩⟩
    rw [tokenAt?, hkinds]
    simp

/-- Where a viable reader fails. -/
theorem reports_of_failed {S : Phrases} {r : Reader α} {fault : Fault} {rest : List Token}
    (hr : Viable [] S r) (hread : r.read p.kinds = .failed fault rest) (hdeep : fault ≠ .tooDeep) :
    p.Reports (p.locate limit (p.skipTo rest.length) fault) (p.tokens.length - rest.length) := by
  obtain ⟨used, hkinds, -, hamong⟩ := hr.stops hread hdeep
  rw [length_of_kinds hkinds, Nat.add_sub_cancel]
  exact reports_locate hkinds hdeep hamong

/-! ### In a text -/

/-- The tokens stand one behind the other, and each takes something of the text. -/
structure Ordered (p : Parser) : Prop where
  nonempty : ∀ i < p.tokens.length, (p.spanAt i).start < (p.spanAt i).stop
  behind : ∀ {i j}, i < j → j ≤ p.tokens.length → (p.spanAt i).stop ≤ (p.spanAt j).start
  forward : ∀ i ≤ p.tokens.length, (p.spanAt i).start ≤ (p.spanAt i).stop

/-- The places of the tokens of a text are those that the lexer gives. -/
theorem spanAt_ofText {text : String} (h : ofText text = .ok p) (hk : k ≤ p.tokens.length) :
    p.spanAt k = ((Lexer.ofText text).after k).place ∧
      (k < p.tokens.length → ((Lexer.ofText text).after k).answer ≠ .ok none) := by
  obtain ⟨placed, hplaced, hafter, hlast⟩ := Lexer.tokenize_answers (Lexer.ofText text)
  have hin := Lexer.standsIn_ofText text
  unfold ofText at h
  rcases hlast with ⟨hend, htokens⟩ | ⟨fault, -, htokens⟩
  · rw [← Prod.eta (Lexer.ofText text).tokenize, htokens] at h
    cases h
    rcases Nat.lt_or_eq_of_le hk with hlt | rfl
    · have hanswer := hplaced k hlt
      refine ⟨?_, fun _ => by rw [hanswer]; nofun⟩
      rw [← ((Lexer.tile_after hin k).token _ hanswer).1, spanAt, List.getElem?_eq_getElem hlt]
    · refine ⟨?_, fun hlt => absurd hlt (Nat.lt_irrefl _)⟩
      obtain ⟨-, -, hpos, -⟩ := Lexer.next_tile (Lexer.standsIn_after hin placed.length)
      have hplace := (Lexer.tile_after hin placed.length).atEnd hend
      rw [spanAt, List.getElem?_eq_none (Nat.le_refl _), hafter]
      change Span.point ((Lexer.ofText text).after placed.length).next.2.pos = _
      rw [hpos, hplace]
      rfl
  · rw [← Prod.eta (Lexer.ofText text).tokenize, htokens] at h
    cases h

theorem ordered_ofText {text : String} (h : ofText text = .ok p) : p.Ordered where
  nonempty i hi := by
    obtain ⟨hspan, hmore⟩ := spanAt_ofText h (Nat.le_of_lt hi)
    rw [hspan]
    exact (Lexer.tile_after (Lexer.standsIn_ofText text) i).progress (hmore hi)
  behind {i j} hij hj := by
    rw [(spanAt_ofText h (Nat.le_trans (Nat.le_of_lt hij) hj)).1, (spanAt_ofText h hj).1]
    exact Lexer.stop_le_start (Lexer.standsIn_ofText text) hij
  forward i hi := by
    rw [(spanAt_ofText h hi).1]
    exact (Lexer.tile_after (Lexer.standsIn_ofText text) i).start_le_stop

/-- Whether or not a parenthesis is missing its other half, the place of the error ends with
the token that it is about. -/
theorem Reports.stop_eq (h : p.Reports e k) (hp : p.Ordered) : e.span.stop = (p.spanAt k).stop := by
  rcases h.span with hspan | ⟨i, hi, -, hspan⟩
  · rw [hspan]
  · have hbehind := hp.behind hi h.within
    have hforward := hp.forward k h.within
    rw [hspan]
    exact Nat.max_eq_right (Nat.le_trans hbehind hforward)

theorem Ordered.stop_lt_stop (hp : p.Ordered) (hij : i < j) (hj : j < p.tokens.length) :
    (p.spanAt i).stop < (p.spanAt j).stop :=
  Nat.lt_of_le_of_lt (hp.behind hij (Nat.le_of_lt hj)) (hp.nonempty j hj)

theorem Reports.le (h : p.Reports e i) (h' : p.Reports e j) (hp : p.Ordered) : i ≤ j := by
  refine Nat.le_of_not_lt fun hji => ?_
  have hfound : p.tokenAt? j = p.tokenAt? i :=
    Option.some.inj (h'.found.symm.trans h.found)
  have hstop := (h.stop_eq hp).symm.trans (h'.stop_eq hp)
  have hi : i < p.tokens.length := by
    have hj : j < p.kinds.length := by
      rw [length_kinds]
      exact Nat.lt_of_lt_of_le hji h.within
    rw [tokenAt?, tokenAt?, List.getElem?_eq_getElem hj] at hfound
    have hi := (List.getElem?_eq_some_iff.mp hfound.symm).1
    rwa [length_kinds] at hi
  exact absurd hstop (Nat.ne_of_gt (hp.stop_lt_stop hji hi))

/-- In a text the error tells which token it is about. -/
theorem Reports.unique (h : p.Reports e i) (h' : p.Reports e j) (hp : p.Ordered) : i = j :=
  Nat.le_antisymm (h.le h' hp) (h'.le h hp)

end Parser
end QueryCanon
