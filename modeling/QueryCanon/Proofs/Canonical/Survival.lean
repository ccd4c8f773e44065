/-
What canonical text keeps of its source.

The two make the same numbers, strings, names, words and signs in the same order, up to the
changes that `content` sets aside; they negate as often, and the canonical text opens no
fewer parentheses.
-/
import QueryCanon.Proofs.Canonical.Reparse

namespace QueryCanon

open Grammar (content negations hasText)

theorem canonicalize_ok {text canonical : String} (h : canonicalize text = .ok canonical) :
    ∃ q, parse text = .ok q ∧ q.text = canonical :=
  exists_of_map_ok h

/-- The tokens of a text, if its characters make tokens. -/
def tokens? (text : String) : Option (List Token) :=
  (Parser.ofText text).toOption.map fun p => p.tokens.map (·.token)

theorem canonicalize_conserves {text canonical : String} (h : canonicalize text = .ok canonical) :
    ∃ ts us, tokens? text = some ts ∧ tokens? canonical = some us ∧
      content us = content ts ∧ us.filter hasText = ts.filter hasText ∧
      negations us = negations ts ∧ ts.count .leftParen ≤ us.count .leftParen := by
  obtain ⟨q, hparse, rfl⟩ := canonicalize_ok h
  obtain ⟨p, rest, hp, hdone⟩ := readText_ok hparse
  have hlexical := Parser.isLexical_ofText hp
  obtain ⟨p', hp', htokens⟩ := q.ofText_text hlexical hdone
  obtain ⟨⟨w, hw, hw'⟩, hnegations, hparens⟩ := Grammar.wholeStatement_reads.alike hlexical hdone
  have hcontent : content q.tokens = content (p.tokens.map (·.token)) :=
    hw'.content_eq.trans hw.content_eq.symm
  have hsource : tokens? text = some (p.tokens.map (·.token)) := by
    rw [tokens?, hp]
    rfl
  have hcanonical : tokens? q.text = some q.tokens := by
    rw [tokens?, hp']
    exact congrArg some htokens
  refine ⟨_, _, hsource, hcanonical, hcontent, ?_, hnegations, hparens⟩
  rw [← Grammar.filter_content, hcontent, Grammar.filter_content]

theorem canonicalize_conserves_negation :
    canonicalize "select a.b, '' from t, u join v on not c = 1;" =
        .ok "SELECT a.b, '' FROM t CROSS JOIN u INNER JOIN v ON c <> 1" ∧
      ∃ ts us, tokens? "select a.b, '' from t, u join v on not c = 1;" = some ts ∧
        tokens? "SELECT a.b, '' FROM t CROSS JOIN u INNER JOIN v ON c <> 1" = some us ∧
        content us = content ts ∧ us.filter hasText = ts.filter hasText ∧
        negations us = negations ts ∧ ts.count .leftParen ≤ us.count .leftParen := by
  have hcanonical : canonicalize "select a.b, '' from t, u join v on not c = 1;" =
      .ok "SELECT a.b, '' FROM t CROSS JOIN u INNER JOIN v ON c <> 1" :=
    ok_of_toOption (by decide +kernel)
  exact ⟨hcanonical, canonicalize_conserves hcanonical⟩

end QueryCanon
