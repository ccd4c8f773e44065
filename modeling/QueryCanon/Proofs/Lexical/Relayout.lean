/-
Texts of the same lexemes.

Between two lexemes any gap does as well as another, as long as there is one: what stands
before it does not go on into a gap.  A keyword may change the case of its letters, and
`<>` may be written `!=`.  None of this changes the tokens (`tokens_relaid`).
-/
import QueryCanon.Proofs.Lexical.Layout
import QueryCanon.Proofs.Lexical.Tiling

namespace QueryCanon

open Gap (IsGap)
open Lexeme (Stops LeadsAs isWord isWordStart isWordPart wordToken)
open Unicode (isBlank isLetter isNumeral)

/-- Whether a token that stands in a text as `cs` may be written `cs'` too. -/
def Token.Respelled : Token → List Char → List Char → Prop
  | .keyword _, cs, cs' => cs'.map Char.toUpper = cs.map Char.toUpper
  | .notEq, _, cs' => cs' = ['<', '>'] ∨ cs' = ['!', '=']
  | _, cs, cs' => cs' = cs

/-- Whether the lexemes of `text`, in new spellings and with new gaps behind them, make up
another text.  Between each two lexemes there is a gap. -/
inductive Relaid (text : List Char) : List Placed → List Char → Prop
  | nil : Relaid text [] []
  | last {p cs gap} : p.token.Respelled (p.span.slice text) cs → IsGap gap →
    Relaid text [p] (cs ++ gap)
  | more {p cs gap placed text'} : p.token.Respelled (p.span.slice text) cs → IsGap gap →
    gap ≠ [] → Relaid text placed text' → Relaid text (p :: placed) (cs ++ (gap ++ text'))

/-- Whether `text'` is `text` in another layout. -/
def IsRelayout (text text' : String) : Prop :=
  ∃ placed gap cs, (Lexer.ofText text).tokenize.1 = .ok placed ∧ text'.toList = gap ++ cs ∧
    IsGap gap ∧ Relaid text.toList placed cs

variable {c : Char} {cs cs' gap rest text : List Char} {k : Keyword} {t : Token}

/-! ### Gaps stop -/

theorem isWordPart_of_isBlank (h : isBlank c = true) : isWordPart c = false := by
  have hnumerals : ∀ n ∈ Lexeme.blanks, Unicode.numerals.holds n = false := by decide +kernel
  have hnumeral : isNumeral c = false := hnumerals _ (Lexeme.mem_blanks h)
  have hstart := Lexeme.not_isWordStart_of_isBlank h
  simp only [isWordStart, Bool.or_eq_false_iff] at hstart
  simp [isWordPart, hnumeral, hstart]

/-- A gap begins with a blank, a dash or a slash, and no token goes on with these. -/
theorem stops_gap (h : IsGap gap) (hne : gap ≠ []) (rest : List Char) : Stops (gap ++ rest) := by
  cases h with
  | nil => exact absurd rfl hne
  | @blank c cs hblank _ =>
    refine Lexeme.stops_cons (isWordPart_of_isBlank hblank) (fun hsign => ?_) _
    have hsigns : ['\'', '=', '>', '.'].all (fun d => !isBlank d) = true := by decide
    have hsolid := List.all_eq_true.mp hsigns c hsign
    rw [hblank] at hsolid
    cases hsolid
  | line => exact Lexeme.stops_cons (by decide) (by decide) _
  | block => exact Lexeme.stops_cons (by decide) (by decide) _

/-! ### Spellings -/

theorem map_toUpper_spelling (k : Keyword) :
    k.spelling.toList.map Char.toUpper = k.spelling.toList := by
  cases k <;> decide +kernel

theorem isUpper_spelling (k : Keyword) :
    ∀ c ∈ k.spelling.toList, 0x41 ≤ c.toNat ∧ c.toNat ≤ 0x5a := by
  have hletters : k.spelling.toList.all (fun c => 0x41 ≤ c.toNat ∧ c.toNat ≤ 0x5a) = true := by
    cases k <;> decide
  exact fun c hc => of_decide_eq_true (List.all_eq_true.mp hletters c hc)

/-- A character whose upper case is a capital is a letter. -/
theorem isWordStart_of_toUpper (h : 0x41 ≤ c.toUpper.toNat ∧ c.toUpper.toNat ≤ 0x5a) :
    isWordStart c = true := by
  have hcapital : ∀ n ∈ List.range' 0x41 26, Unicode.letters.holds n = true := by decide +kernel
  have hsmall : ∀ n ∈ List.range' 0x61 26, Unicode.letters.holds n = true := by decide +kernel
  have hletter : isLetter c = true := by
    by_cases hlower : 0x61 ≤ c.toNat ∧ c.toNat ≤ 0x7a
    · exact hsmall _ (List.mem_range'_1.mpr (by omega))
    · have hsame : c.toUpper = c := by
        refine dif_neg ?_
        rintro ⟨hlow, hhigh⟩
        exact hlower ⟨hlow, hhigh⟩
      rw [hsame] at h
      exact hcapital _ (List.mem_range'_1.mpr (by omega))
  simp [isWordStart, hletter]

theorem isWord_of_toUpper (h : cs.map Char.toUpper = k.spelling.toList) : isWord cs = true := by
  have hletters : ∀ c ∈ cs, isWordStart c = true := by
    intro c hc
    have hmem : c.toUpper ∈ k.spelling.toList := h ▸ List.mem_map_of_mem hc
    exact isWordStart_of_toUpper (isUpper_spelling k _ hmem)
  have hparts : cs.all isWordPart = true :=
    List.all_eq_true.mpr fun c hc => Lexeme.isWordPart_of_isWordStart (hletters c hc)
  cases cs with
  | nil => cases k <;> cases h
  | cons c cs =>
    rw [isWord, hparts, Bool.and_true]
    exact hletters c List.mem_cons_self

theorem wordToken_of_toUpper (h : cs.map Char.toUpper = k.spelling.toList) :
    wordToken cs = .keyword k := by
  have hword : Keyword.ofWord? cs = some k := by
    rw [← Keyword.ofWord?_spelling k, Keyword.ofWord?, Keyword.ofWord?, h, map_toUpper_spelling]
  rw [wordToken, hword]

theorem Token.SpelledBy.isLexical (h : t.SpelledBy cs) : t.IsLexical := by
  cases t with
  | keyword => trivial
  | notEq => trivial
  | identifier name =>
    obtain ⟨rfl, hword, hkeyword⟩ := h
    refine ⟨hword, List.find?_eq_none.mpr fun k _ => ?_⟩
    simpa using (hkeyword k).symm
  | _ => exact h.2

/-- Whatever spells a token is read as that token. -/
theorem leadsAs_of_spelledBy (h : t.SpelledBy cs) (hrest : Stops rest) :
    LeadsAs cs (cs ++ rest) t rest := by
  have hspelled : cs = t.spelling.toList → LeadsAs cs (cs ++ rest) t rest := by
    rintro rfl
    exact Lexeme.leads_spelling h.isLexical fun _ => hrest
  cases t with
  | keyword k =>
    rw [← wordToken_of_toUpper h]
    exact Lexeme.leadsAs_word (isWord_of_toUpper h) hrest
  | notEq =>
    rcases h with rfl | rfl
    · exact hspelled rfl
    · exact ⟨'!', '=' :: rest, rfl, Gap.split_of_solid (by decide) (by decide) (by decide), rfl⟩
  | _ => exact hspelled h.1

theorem Token.Respelled.spelledBy (h : t.Respelled cs cs') (hcs : t.SpelledBy cs) :
    t.SpelledBy cs' := by
  cases t with
  | keyword k => exact h.trans hcs
  | notEq => exact h
  | _ => exact h ▸ hcs

/-! ### The tokens -/

theorem Relaid.makes {placed : List Placed} (h : Relaid text placed cs)
    (hspelled : ∀ p ∈ placed, p.token.SpelledBy (p.span.slice text)) :
    Lexer.Makes cs (placed.map (·.token)) := by
  induction h with
  | nil => exact Lexer.makes_nil
  | @last p cs gap hcs hgap =>
    have hlead := hcs.spelledBy (hspelled p List.mem_cons_self)
    have hbehind := Lexer.makes_gap hgap Lexer.makes_nil
    rw [List.append_nil] at hbehind
    refine Lexer.makes_of_leadsAs (leadsAs_of_spelledBy hlead ?_) hbehind
    by_cases hne : gap = []
    · rw [hne]
      exact Lexeme.stops_nil
    · have hstops := stops_gap hgap hne []
      rwa [List.append_nil] at hstops
  | @more p cs gap placed text' hcs hgap hne _ ih =>
    obtain ⟨hp, hmore⟩ := List.forall_mem_cons.mp hspelled
    have hlead := leadsAs_of_spelledBy (hcs.spelledBy hp) (stops_gap hgap hne text')
    exact Lexer.makes_of_leadsAs hlead (Lexer.makes_gap hgap (ih hmore))

/-- Another layout has the same tokens. -/
theorem tokens_relaid {text text' : String} (h : IsRelayout text text') :
    ∃ placed placed', (Lexer.ofText text).tokenize.1 = .ok placed ∧
      (Lexer.ofText text').tokenize.1 = .ok placed' ∧
      placed'.map (·.token) = placed.map (·.token) := by
  obtain ⟨placed, gap, cs, hplaced, htext, hgap, hrelaid⟩ := h
  have hmakes := Lexer.makes_gap hgap (hrelaid.makes (Lexer.spelledBy_tokenize hplaced))
  rw [← htext] at hmakes
  obtain ⟨placed', hplaced', htokens⟩ := hmakes 0
  exact ⟨placed, placed', hplaced, hplaced', htokens⟩

end QueryCanon
