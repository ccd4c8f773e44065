/-
Layout and the case of keywords do not matter.

What is read from a text depends on nothing but its tokens, and these are the same in every
layout.
-/
import QueryCanon.Proofs.Canonical.Survival
import QueryCanon.Proofs.Lexical.Relayout

namespace QueryCanon

open Grammar (Reader)
open Gap (IsGap)

variable {α : Type} {limit : Nat} {text text' : String}

theorem tokens?_of_tokenize {placed : List Placed}
    (h : (Lexer.ofText text).tokenize.1 = .ok placed) :
    tokens? text = some (placed.map (·.token)) := by
  unfold tokens? Parser.ofText
  split
  · next found after hfound =>
    rw [hfound] at h
    cases h
    rfl
  · next e after hfound =>
    rw [hfound] at h
    cases h

/-- The value that reading comes to. -/
def Grammar.Outcome.value? : Outcome α → Option α
  | done a _ => some a
  | failed _ _ => none

/-- What is read depends on the tokens alone. -/
theorem readText_congr (r : Reader α) (h : tokens? text' = tokens? text) :
    (readText limit r text').toOption = (readText limit r text).toOption := by
  have hread : ∀ text, (readText limit r text).toOption =
      (tokens? text).bind fun ts => (r.read ts).value? := by
    intro text
    unfold readText tokens?
    cases Parser.ofText text with
    | error e => rfl
    | ok p =>
      dsimp only [Parser.run, Except.toOption, Option.map_some, Option.bind_some]
      cases r.read (p.tokens.map (·.token)) <;> rfl
  rw [hread, hread, h]

theorem toOption_map {ε α β : Type} (f : α → β) (x : Except ε α) :
    (x.map f).toOption = x.toOption.map f := by
  cases x <;> rfl

/-- In another layout a text makes the same tokens, and what is read from it is the same. -/
theorem relayout_alike (h : IsRelayout text text') :
    (∃ ts, tokens? text = some ts ∧ tokens? text' = some ts) ∧
    (∀ limit, (parseWithin limit text').toOption = (parseWithin limit text).toOption) ∧
    (parse text').toOption = (parse text).toOption ∧
    (parseScript text').toOption = (parseScript text).toOption ∧
    (parseExpr text').toOption = (parseExpr text).toOption ∧
    (canonicalize text').toOption = (canonicalize text).toOption := by
  obtain ⟨placed, placed', hplaced, hplaced', htokens⟩ := tokens_relaid h
  have htext := tokens?_of_tokenize hplaced
  have htext' := tokens?_of_tokenize hplaced'
  rw [htokens] at htext'
  have hsame := htext'.trans htext.symm
  refine ⟨⟨_, htext, htext'⟩, fun _ => readText_congr _ hsame, readText_congr _ hsame,
    readText_congr _ hsame, readText_congr _ hsame, ?_⟩
  have hparse : (parse text').toOption = (parse text).toOption := readText_congr _ hsame
  rw [canonicalize_eq, canonicalize_eq, toOption_map, toOption_map, hparse]

/-- The lexemes of `SELECT a!=1`. -/
def denseLexemes : List Placed :=
  [⟨.keyword .SELECT, 0, 6⟩, ⟨.identifier "a", 7, 8⟩, ⟨.notEq, 8, 10⟩, ⟨.integer "1", 10, 11⟩]

/-- With comments, a keyword in small letters and the other spelling of `!=`. -/
theorem relayout_alike_comments :
    IsRelayout "SELECT a!=1" "/*'*/select--\n a <> 1\t" ∧
    (∃ ts, tokens? "SELECT a!=1" = some ts ∧ tokens? "/*'*/select--\n a <> 1\t" = some ts) ∧
    (canonicalize "/*'*/select--\n a <> 1\t").toOption =
      (canonicalize "SELECT a!=1").toOption := by
  have hblank : IsGap [' '] := .blank (by decide) .nil
  have hcomment : IsGap ('/' :: '*' :: (['\''] ++ '*' :: '/' :: [])) := .block (by decide) .nil
  have hline : IsGap ('-' :: '-' :: ([] ++ '\n' :: [' '])) := .line (by decide) hblank
  have htab : IsGap ['\t'] := .blank (by decide) .nil
  have hkeyword : "select".toList.map Char.toUpper = "SELECT".toList.map Char.toUpper := by decide
  have hnumber : Relaid "SELECT a!=1".toList (denseLexemes.drop 3) (['1'] ++ ['\t']) :=
    .last rfl htab
  have hsign : Relaid "SELECT a!=1".toList (denseLexemes.drop 2) (['<', '>'] ++ ([' '] ++ _)) :=
    .more (.inl rfl) hblank (by decide) hnumber
  have hname : Relaid "SELECT a!=1".toList (denseLexemes.drop 1) (['a'] ++ ([' '] ++ _)) :=
    .more rfl hblank (by decide) hsign
  have hrelaid : Relaid "SELECT a!=1".toList denseLexemes ("select".toList ++ (_ ++ _)) :=
    .more hkeyword hline (by decide) hname
  have hrelayout : IsRelayout "SELECT a!=1" "/*'*/select--\n a <> 1\t" :=
    ⟨denseLexemes, _, _, by decide +kernel, rfl, hcomment, hrelaid⟩
  obtain ⟨htokens, -, -, -, -, hcanonical⟩ := relayout_alike hrelayout
  exact ⟨hrelayout, htokens, hcanonical⟩

end QueryCanon
