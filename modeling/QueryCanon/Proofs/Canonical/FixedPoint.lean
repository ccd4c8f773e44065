/-
When canonical text is its own canonical text.

It is unless the parentheses that it adds to the source nest deeper than the limit allows.
A source within the limit may have no room left for them; a source within half of it has.
-/
import QueryCanon.Proofs.Canonical.Reparse
import QueryCanon.Proofs.Query.Headroom

namespace QueryCanon

variable {text : String} {q : Query}

theorem canonicalize_of_parse (h : parse text = .ok q) : canonicalize text = .ok q.text := by
  rw [canonicalize_eq, h]
  rfl

theorem canonicalize_of_error {e : ParseError} (h : parse text = .error e) :
    canonicalize text = .error e := by
  rw [canonicalize_eq, h]
  rfl

theorem canonicalize_of_levels (h : parse text = .ok q)
    (hlevels : q.wrapped.levels ≤ nestingLimit) :
    canonicalize q.text = .ok q.text := by
  have hagain := canonicalize_of_parse ((parse_readsBack h).enough nestingLimit hlevels)
  rwa [Query.text_wrapped] at hagain

/-- What nests no deeper than half the limit has a canonical text that is a fixed point. -/
theorem canonicalize_of_half_levels (h : parse text = .ok q)
    (hlevels : 2 * q.levels ≤ nestingLimit) :
    canonicalize q.text = .ok q.text :=
  canonicalize_of_levels h (Nat.le_trans q.levels_wrapped_le hlevels)

/-- Under twice the limit every canonical text is read again. -/
theorem parseWithin_double (h : parse text = .ok q) :
    parseWithin (2 * nestingLimit) q.text = .ok q.wrapped := by
  refine (parse_readsBack h).enough _ (Nat.le_trans q.levels_wrapped_le ?_)
  exact Nat.mul_le_mul_left 2 (levels_le_of_parse h)

/-- The canonical text of an accepted query is a fixed point if the wrapped query nests no
deeper than the limit, and otherwise it is not accepted. -/
theorem canonicalize_fixed_iff (h : parse text = .ok q) :
    (canonicalize q.text = .ok q.text ↔ q.wrapped.levels ≤ nestingLimit) ∧
    (nestingLimit < q.wrapped.levels →
      ∃ span, canonicalize q.text = .error (.grammatical ⟨.tooDeep nestingLimit, span⟩)) := by
  have hback := parse_readsBack h
  have hdeep : nestingLimit < q.wrapped.levels →
      ∃ span, canonicalize q.text = .error (.grammatical ⟨.tooDeep nestingLimit, span⟩) := by
    intro hlevels
    obtain ⟨span, herror⟩ := hback.tooDeep nestingLimit hlevels
    exact ⟨span, canonicalize_of_error herror⟩
  refine ⟨⟨fun hfixed => ?_, fun hlevels => ?_⟩, hdeep⟩
  · rcases Nat.lt_or_ge nestingLimit q.wrapped.levels with hlt | hge
    · obtain ⟨span, herror⟩ := hdeep hlt
      rw [herror] at hfixed
      cases hfixed
    · exact hge
  · exact canonicalize_of_levels h hlevels

/-- `SELECT a WHERE ((a)) OR b`, with as many parentheses around `a`. -/
def bracketedText (parens : Nat) : String :=
  "SELECT a WHERE " ++ String.ofList (List.replicate parens '(') ++ "a" ++
    String.ofList (List.replicate parens ')') ++ " OR b"

def bracketedQuery (parens : Nat) : Query :=
  let bracketed : Expr := Nat.repeat .paren parens (.column ⟨none, "a"⟩)
  ⟨[⟨.column ⟨none, "a"⟩, none⟩], none, none, some (.or bracketed (.column ⟨none, "b"⟩)), [],
    none, [], none⟩

theorem canonicalize_fixed_iff_bracketed :
    parse (bracketedText 1) = .ok (bracketedQuery 1) ∧
    ((canonicalize (bracketedQuery 1).text = .ok (bracketedQuery 1).text ↔
        (bracketedQuery 1).wrapped.levels ≤ nestingLimit) ∧
      (nestingLimit < (bracketedQuery 1).wrapped.levels →
        ∃ span, canonicalize (bracketedQuery 1).text =
          .error (.grammatical ⟨.tooDeep nestingLimit, span⟩))) := by
  have hparse : parse (bracketedText 1) = .ok (bracketedQuery 1) :=
    ok_of_toOption (by decide +kernel)
  exact ⟨hparse, canonicalize_fixed_iff hparse⟩

/-- With 99 parentheses the source nests as deep as it may, and the pair that canonical text
has around the whole condition is one too many. -/
theorem bracketedText_not_fixed :
    canonicalize (bracketedText 99) = .ok (bracketedQuery 99).text ∧
      ∃ span, canonicalize (bracketedQuery 99).text =
        .error (.grammatical ⟨.tooDeep nestingLimit, span⟩) := by
  have hparse : parse (bracketedText 99) = .ok (bracketedQuery 99) :=
    ok_of_toOption (by decide +kernel)
  have hlevels : nestingLimit < (bracketedQuery 99).wrapped.levels := by decide +kernel
  obtain ⟨span, herror⟩ := (parse_readsBack hparse).tooDeep nestingLimit hlevels
  exact ⟨canonicalize_of_parse hparse, span, canonicalize_of_error herror⟩

end QueryCanon
