/-
Strings, from quote to quote.

Quotes in pairs belong to a string, and the first quote without a partner closes it.
`Splits` says how the text behind an opening quote falls into the body of the string and
what stands behind its closing quote.  It falls so in one way at most, and the lexer finds
that way if there is one (`strings_split`).  What else stands in the body, and what stands
behind the string, does not matter.
-/
import QueryCanon.Proofs.Lexical.Context
import QueryCanon.Query.Tokens

namespace QueryCanon
namespace Lexeme

/-- Whether `text`, which stands behind an opening quote, is the body of a string, its closing
quote and `behind`. -/
structure Splits (text body behind : List Char) : Prop where
  text_eq : text = body ++ '\'' :: behind
  quoted : Quoted body
  alone : behind.head? ≠ some '\''

variable {text body behind body' behind' : List Char}

theorem closeQuote_eq_some_iff :
    closeQuote text = some (body, behind) ↔ Splits text body behind := by
  constructor
  · intro h
    exact ⟨(append_of_closeQuote h).symm, quoted_of_closeQuote h, head?_of_closeQuote h⟩
  · rintro ⟨rfl, hquoted, halone⟩
    exact closeQuote_append hquoted halone

theorem closeQuote_eq_none_iff :
    closeQuote text = none ↔ ∀ body behind, ¬Splits text body behind := by
  rw [Option.eq_none_iff_forall_ne_some, Prod.forall]
  simp only [ne_eq, closeQuote_eq_some_iff]

/-- A text splits in one way at most. -/
theorem Splits.unique (h : Splits text body behind) (h' : Splits text body' behind') :
    body = body' ∧ behind = behind' := by
  have hcut := closeQuote_eq_some_iff.mpr h
  rw [closeQuote_eq_some_iff.mpr h', Option.some.injEq, Prod.mk.injEq] at hcut
  exact ⟨hcut.1.symm, hcut.2.symm⟩

theorem readString_of_splits (h : Splits text body behind) :
    readString text = (⟨.ok (.string (String.ofList body)), '\'' :: body ++ ['\'']⟩, behind) := by
  rw [readString, closeQuote_eq_some_iff.mpr h]

theorem readString_of_not_splits (h : ∀ body behind, ¬Splits text body behind) :
    readString text = (⟨.error .unterminatedString, '\'' :: text⟩, []) := by
  rw [readString, closeQuote_eq_none_iff.mpr h]

end Lexeme

namespace Lexer

open Lexeme (Quoted Splits readString)
open Gap (IsGap)

/-- Whether the lexer meets a quote at the byte `start`, with `rest` behind it. -/
def MeetsQuote (l : Lexer) (start : Nat) (rest : List Char) : Prop :=
  ∃ gap, IsGap gap ∧ l.rest = gap ++ '\'' :: rest ∧ start = l.pos + utf8Length gap

variable {l : Lexer} {start : Nat} {rest body behind : List Char}

theorem MeetsQuote.next_eq (h : l.MeetsQuote start rest) :
    l.next = (Lexer.mk start ('\'' :: rest)).next := by
  obtain ⟨gap, hgap, hrest, rfl⟩ := h
  rw [← next_gap hgap, ← hrest]

theorem next_quote (start : Nat) (rest : List Char) :
    (Lexer.mk start ('\'' :: rest)).next =
      match (readString rest).1.content with
      | .ok t => (.ok (some ⟨t, start, start + utf8Length (readString rest).1.text⟩),
          ⟨start + utf8Length (readString rest).1.text, (readString rest).2⟩)
      | .error fault => (.error ⟨fault, start, start + utf8Length (readString rest).1.text⟩,
          ⟨start + utf8Length (readString rest).1.text, (readString rest).2⟩) := by
  have hsplit : Gap.split ('\'' :: rest) = ([], '\'' :: rest) :=
    Gap.split_of_solid (by decide) (by decide) (by decide)
  unfold next
  dsimp only
  rw [hsplit]
  rfl

theorem utf8Length_quoted (body : List Char) :
    utf8Length ('\'' :: body ++ ['\'']) = utf8Length body + 2 := by
  rw [utf8Length_append, utf8Length, utf8Length, utf8Length]
  have hquote : '\''.utf8Size = 1 := by decide
  omega

theorem MeetsQuote.next_of_splits (h : l.MeetsQuote start rest) (hsplits : Splits rest body behind) :
    l.next = (.ok (some ⟨.string (String.ofList body), start, start + (utf8Length body + 2)⟩),
      ⟨start + (utf8Length body + 2), behind⟩) := by
  rw [h.next_eq, next_quote, Lexeme.readString_of_splits hsplits]
  dsimp only
  rw [utf8Length_quoted]

theorem MeetsQuote.answer_of_not_splits (h : l.MeetsQuote start rest)
    (hsplits : ∀ body behind, ¬Splits rest body behind) :
    ∃ span, l.answer = .error ⟨.unterminatedString, span⟩ := by
  rw [answer, h.next_eq, next_quote, Lexeme.readString_of_not_splits hsplits]
  exact ⟨_, rfl⟩

theorem MeetsQuote.answer_string_iff (h : l.MeetsQuote start rest) {body : String} :
    (∃ span, l.answer = .ok (some ⟨.string body, span⟩)) ↔
      ∃ behind, Splits rest body.toList behind := by
  constructor
  · rintro ⟨span, hanswer⟩
    by_cases hsplits : ∃ found behind, Splits rest found behind
    · obtain ⟨found, behind, hsplits⟩ := hsplits
      rw [answer, h.next_of_splits hsplits] at hanswer
      cases hanswer
      exact ⟨behind, by rwa [String.toList_ofList]⟩
    · obtain ⟨_, herror⟩ := h.answer_of_not_splits (by simpa using hsplits)
      rw [herror] at hanswer
      cases hanswer
  · rintro ⟨behind, hsplits⟩
    rw [answer, h.next_of_splits hsplits, String.ofList_toList]
    exact ⟨_, rfl⟩

theorem MeetsQuote.answer_unterminated_iff (h : l.MeetsQuote start rest) :
    (∃ span, l.answer = .error ⟨.unterminatedString, span⟩) ↔
      ∀ body behind, ¬Splits rest body behind := by
  refine ⟨?_, h.answer_of_not_splits⟩
  rintro ⟨span, hanswer⟩ body behind hsplits
  rw [answer, h.next_of_splits hsplits] at hanswer
  cases hanswer

/-- The printed form of a string reads back as that string. -/
theorem next_printed (pos : Nat) {body : String} (hquoted : Quoted body.toList)
    (halone : behind.head? ≠ some '\'') :
    (Lexer.mk pos ((Literal.string body).token.spelling.toList ++ behind)).next =
      (.ok (some ⟨.string body, pos, pos + (utf8Length body.toList + 2)⟩),
        ⟨pos + (utf8Length body.toList + 2), behind⟩) := by
  have hmeets : (Lexer.mk pos ((Literal.string body).token.spelling.toList ++ behind)).MeetsQuote
      pos (body.toList ++ '\'' :: behind) :=
    ⟨[], .nil, by simp [Literal.token, Token.spelling], rfl⟩
  have hnext := hmeets.next_of_splits ⟨rfl, hquoted, halone⟩
  rwa [String.ofList_toList] at hnext

/-- Where the lexer meets a quote, it takes the one string that the text behind splits off;
if the text splits off none, the string has no end.  And whatever stands in a body, apart from
quotes without a partner, its printed form is read as that body. -/
theorem strings_split :
    (∀ (l : Lexer) (start : Nat) (rest : List Char), l.MeetsQuote start rest →
      (∀ body : String, (∃ span, l.answer = .ok (some ⟨.string body, span⟩)) ↔
        ∃ behind, Splits rest body.toList behind) ∧
      ((∃ span, l.answer = .error ⟨.unterminatedString, span⟩) ↔
        ∀ body behind, ¬Splits rest body behind) ∧
      ∀ body behind, Splits rest body behind →
        l.next = (.ok (some ⟨.string (String.ofList body), start, start + (utf8Length body + 2)⟩),
          ⟨start + (utf8Length body + 2), behind⟩) ∧
        ∀ body' behind', Splits rest body' behind' → body' = body ∧ behind' = behind) ∧
    ∀ (pos : Nat) (body : String) (behind : List Char), Quoted body.toList →
      behind.head? ≠ some '\'' →
      (Lexer.mk pos ((Literal.string body).token.spelling.toList ++ behind)).next =
        (.ok (some ⟨.string body, pos, pos + (utf8Length body.toList + 2)⟩),
          ⟨pos + (utf8Length body.toList + 2), behind⟩) := by
  refine ⟨fun l start rest hmeets => ?_, fun pos _ _ => next_printed pos⟩
  refine ⟨fun body => hmeets.answer_string_iff, hmeets.answer_unterminated_iff, ?_⟩
  intro body behind hsplits
  exact ⟨hmeets.next_of_splits hsplits, fun _ _ hsplits' => hsplits'.unique hsplits⟩

/-- A comment with a quote in it, and a string that holds what looks like a comment and ends
with the last of three quotes. -/
def threeQuotes : Lexer := ⟨3, "/*'*/'é''--;\n''' ''x".toList⟩

theorem strings_split_threeQuotes :
    threeQuotes.MeetsQuote 8 "é''--;\n''' ''x".toList ∧
    Splits "é''--;\n''' ''x".toList "é''--;\n''".toList " ''x".toList ∧
    (∃ span, threeQuotes.answer = .ok (some ⟨.string "é''--;\n''", span⟩)) ∧
    threeQuotes.next.2 = ⟨20, " ''x".toList⟩ ∧
    (Lexer.mk 0 ((Literal.string "é''--;\n''").token.spelling.toList ++ [' '])).next =
      (.ok (some ⟨.string "é''--;\n''", 0, 12⟩), ⟨12, [' ']⟩) := by
  have hmeets : threeQuotes.MeetsQuote 8 "é''--;\n''' ''x".toList :=
    ⟨"/*'*/".toList, @IsGap.block ['\''] [] (by decide) .nil, by decide, by decide⟩
  have hsplits : Splits "é''--;\n''' ''x".toList "é''--;\n''".toList " ''x".toList :=
    Lexeme.closeQuote_eq_some_iff.mp (by decide)
  obtain ⟨hstring, -, hnext⟩ := strings_split.1 _ _ _ hmeets
  refine ⟨hmeets, hsplits, (hstring _).mpr ⟨_, hsplits⟩, ?_, ?_⟩
  · rw [(hnext _ _ hsplits).1]
    rfl
  · exact strings_split.2 0 _ [' '] hsplits.quoted (by decide)

end Lexer
end QueryCanon
