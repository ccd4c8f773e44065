/-
The canonical text of a query is tidy.

It is written part by part, each with what stands between its own parts, and is the layout of its
tokens all the same (`Query.text_eq`).  The lexer gives these tokens, so what holds of their layout
holds of the text; and it ends with the end of a token, never with a blank, so a line that holds it
alone has no blank at its end but the line break.
-/
import QueryCanon.Proofs.Canonical.Single
import QueryCanon.Proofs.Lexical.Spacing

namespace QueryCanon

open Unicode (trimEnd)

variable {text : String} {q : Query}

namespace Query

theorem tokens_ne_nil (q : Query) : q.tokens ≠ [] := by
  obtain ⟨items, source, scope, filter, groups, groupFilter, order, limit⟩ := q
  rw [Query.tokens_eq]
  exact List.cons_ne_nil _ _

theorem toList_text (q : Query) : q.text.toList = Layout.chars q.tokens := by
  rw [q.text_eq, Layout.text, String.toList_ofList]

namespace Laid

theorem tidy (h : q.Laid) : ∃ placed, (Lexer.ofText q.text).tokenize.1 = .ok placed ∧
    Tidy q.text.toList placed := by
  have htokens := Layout.tokenize_chars h.lexical h.pointed 0
  have htidy := Layout.tidy_chars h.lexical
  rw [← toList_text] at htokens htidy
  exact ⟨_, htokens, htidy⟩

theorem trimEnd_line (h : q.Laid) : trimEnd (q.text ++ "\n") = q.text.toList := by
  refine QueryCanon.trimEnd_line fun z hz => ?_
  obtain ⟨t, ht, hends⟩ := Layout.chars_suffix q.tokens_ne_nil
  obtain ⟨-, z', hz', hsolid⟩ := Token.solid_ends (h.lexical t ht)
  rw [toList_text, Layout.getLast?_of_suffix hends hz'] at hz
  cases hz
  exact hsolid.blank

/-- What a text is compared with, where it should be the line of the query. -/
theorem sameUpToTrailingBlanks_line (h : q.Laid) (other : String) :
    sameUpToTrailingBlanks (render [q]) other = (q.text.toList == trimEnd other) := by
  have hline : render [q] = q.text ++ "\n" := by simp [render, line]
  rw [sameUpToTrailingBlanks, hline, h.trimEnd_line]

end Laid
end Query

/-- The canonical text of a query is tidy.  Formatted, it is followed by a line break, which is
all that is trimmed from it where texts are compared. -/
theorem canonical_tidy :
    (∀ text q, parse text = .ok q → canonicalize text = .ok q.text ∧
      parseScript text = .ok [q] ∧
      ∃ placed, (Lexer.ofText q.text).tokenize.1 = .ok placed ∧ Tidy q.text.toList placed) ∧
    (∀ text q, parseScript text = .ok [q] → format text = .ok (q.text ++ "\n") ∧
      trimEnd (q.text ++ "\n") = q.text.toList ∧
      isCanonical text = .ok (q.text.toList == trimEnd text) ∧
      ∀ other, sameUpToTrailingBlanks (render [q]) other = (q.text.toList == trimEnd other)) := by
  have hlaid : ∀ {text q}, parseScript text = .ok [q] → q.Laid := fun h =>
    (accepted_of_parseScript h _ (List.mem_singleton_self _)).laid
  constructor
  · intro text q h
    obtain ⟨hscript, -⟩ := parseWithin_iff_script.mp h
    exact ⟨by rw [canonicalize_eq, h]; rfl, hscript, (hlaid hscript).tidy⟩
  · intro text q h
    have hsame := (hlaid h).sameUpToTrailingBlanks_line
    have hformat : format text = .ok (render [q]) := by rw [format_eq, h]; rfl
    refine ⟨?_, (hlaid h).trimEnd_line, ?_, hsame⟩
    · rw [hformat]
      exact congrArg Except.ok (by simp [render, line])
    · rw [isCanonical_eq, hformat]
      exact congrArg Except.ok (hsame text)

/-- An empty list of arguments, a string with blanks and comment signs in it, and a truth value. -/
def spacedQuery : Query :=
  .ofItems [⟨.call "count" [], none⟩, ⟨.literal (.string "a  --/* "), none⟩,
    ⟨.literal (.boolean true), none⟩]

theorem canonical_tidy_quotedBlanks :
    (parse "select count( )\t,'a  --/* ',TRUE -- b" = .ok spacedQuery ∧
      spacedQuery.text = "SELECT count(), 'a  --/* ', true" ∧
      ∃ placed, (Lexer.ofText spacedQuery.text).tokenize.1 = .ok placed ∧
        Tidy spacedQuery.text.toList placed) ∧
    parseScript "SELECT count(), 'a  --/* ', true\n\t\n" = .ok [spacedQuery] ∧
    isCanonical "SELECT count(), 'a  --/* ', true\n\t\n" =
      .ok (spacedQuery.text.toList == trimEnd "SELECT count(), 'a  --/* ', true\n\t\n") := by
  have hstatement : parse "select count( )\t,'a  --/* ',TRUE -- b" = .ok spacedQuery :=
    ok_of_toOption (by decide +kernel)
  have hscript : parseScript "SELECT count(), 'a  --/* ', true\n\t\n" = .ok [spacedQuery] :=
    ok_of_toOption (by decide +kernel)
  obtain ⟨htidy, hline⟩ := canonical_tidy
  exact ⟨⟨hstatement, by decide +kernel, (htidy _ _ hstatement).2.2⟩, hscript,
    (hline _ _ hscript).2.2.1⟩

end QueryCanon
