/-
The tokens that a text can make.

A token is `IsLexical` if its text is one that the lexer gives for a token of its kind:
what is read as a lexeme is.
-/
import QueryCanon.Lexical.Gap
import QueryCanon.Lexical.Lexeme

namespace QueryCanon
namespace Lexeme

open Unicode (isBlank isLetter isNumeral)

/-- The text between the outer quotes of a string: quotes stand in it only in pairs. -/
inductive Quoted : List Char → Prop
  | nil : Quoted []
  | quotes {cs} : Quoted cs → Quoted ('\'' :: '\'' :: cs)
  | char {c cs} : c ≠ '\'' → Quoted cs → Quoted (c :: cs)

variable {c : Char} {cs rest text : List Char} {t : Token}

/-! ### Classes of characters -/

theorem toNat_of_isDigit (h : c.isDigit = true) : 48 ≤ c.toNat ∧ c.toNat ≤ 57 := by
  simpa [Char.isDigit, UInt32.le_iff_toNat_le] using h

theorem letter_of_toNat_lt (h : c.toNat < 0x41) : isLetter c = false :=
  Unicode.Ranges.holds_of_lt _ h

theorem le_of_isWordStart (h : isWordStart c = true) : 0x41 ≤ c.toNat := by
  rcases Nat.lt_or_ge c.toNat 0x41 with hlt | hge
  · rw [isWordStart, letter_of_toNat_lt hlt, Bool.false_or, beq_iff_eq] at h
    subst h
    decide
  · exact hge

theorem not_isDigit_of_isWordStart (h : isWordStart c = true) : c.isDigit = false := by
  rw [Bool.eq_false_iff]
  intro hdigit
  have hle := le_of_isWordStart h
  have hdigit := (toNat_of_isDigit hdigit).2
  omega

/-- The code points of the blanks. -/
def blanks : List Nat :=
  [9, 10, 11, 12, 13, 0x20, 0x85, 0xa0, 0x1680, 0x2000, 0x2001, 0x2002, 0x2003, 0x2004, 0x2005,
   0x2006, 0x2007, 0x2008, 0x2009, 0x200a, 0x2028, 0x2029, 0x202f, 0x205f, 0x3000]

theorem mem_blanks (h : isBlank c = true) : c.toNat ∈ blanks := by
  simp only [isBlank, Bool.or_eq_true, Bool.and_eq_true, decide_eq_true_eq, beq_iff_eq] at h
  simp only [blanks, List.mem_cons, List.not_mem_nil, or_false]
  omega

/-- No blank is a letter or an underscore. -/
theorem not_isWordStart_of_isBlank (h : isBlank c = true) : isWordStart c = false := by
  have hletters : ∀ n ∈ blanks, Unicode.letters.holds n = false := by decide +kernel
  have hletter : isLetter c = false := hletters _ (mem_blanks h)
  have hunderscore : c ≠ '_' := by
    rintro rfl
    revert h
    decide
  rw [isWordStart, hletter]
  simpa using hunderscore

theorem isWordPart_of_isWordStart (h : isWordStart c = true) : isWordPart c = true := by
  simp only [isWordStart, isWordPart, Bool.or_eq_true] at *
  rcases h with h | h
  · exact .inl (.inl h)
  · exact .inr h

theorem holds_first {low high n : Nat} (more : Unicode.Ranges) (hlow : low ≤ n) (hhigh : n ≤ high) :
    Unicode.Ranges.holds ((low, high) :: more) n = true := by
  simp [Unicode.Ranges.holds, hlow, hhigh]

theorem isWordPart_of_isDigit (h : c.isDigit = true) : isWordPart c = true := by
  have hdigit := toNat_of_isDigit h
  have hnumeral : isNumeral c = true := holds_first _ hdigit.1 hdigit.2
  simp [isWordPart, hnumeral]

/-! ### Runs of a class -/

theorem takeWhile_run {p : Char → Bool} (h : ∀ d ∈ cs, p d = true)
    (hrest : ∀ d, rest.head? = some d → p d = false) : (cs ++ rest).takeWhile p = cs := by
  rw [List.takeWhile_append_of_pos h]
  cases rest with
  | nil => simp
  | cons d rest => simp [hrest d rfl]

theorem dropWhile_run {p : Char → Bool} (h : ∀ d ∈ cs, p d = true)
    (hrest : ∀ d, rest.head? = some d → p d = false) : (cs ++ rest).dropWhile p = rest := by
  rw [List.dropWhile_append_of_pos h]
  cases rest with
  | nil => rfl
  | cons d rest => simp [hrest d rfl]

theorem quoted_of_closeQuote {body left : List Char} (h : closeQuote text = some (body, left)) :
    Quoted body := by
  fun_induction closeQuote text generalizing body left with
  | case1 => cases h
  | case2 rest ih =>
    obtain ⟨⟨b, l⟩, hcut, he⟩ := Option.map_eq_some_iff.mp h
    cases he
    exact .quotes (ih hcut)
  | case3 rest _ =>
    cases h
    exact .nil
  | case4 c rest _ hquote ih =>
    obtain ⟨⟨b, l⟩, hcut, he⟩ := Option.map_eq_some_iff.mp h
    cases he
    exact .char hquote (ih hcut)

/-- A quote with no quote behind it closes the string. -/
theorem closeQuote_append (h : Quoted cs) (hrest : rest.head? ≠ some '\'') :
    closeQuote (cs ++ '\'' :: rest) = some (cs, rest) := by
  induction h with
  | nil =>
    rw [List.nil_append, closeQuote.eq_3]
    intro left hleft
    rw [hleft] at hrest
    exact hrest rfl
  | quotes _ ih =>
    rw [List.cons_append, List.cons_append, closeQuote.eq_2, ih]
    rfl
  | char hc _ ih =>
    rw [List.cons_append, closeQuote.eq_4 _ _ (fun _ h => absurd h hc) hc, ih]
    rfl

/-! ### What is read -/

/-- One or more digits. -/
def Digits (cs : List Char) : Prop := cs ≠ [] ∧ ∀ d ∈ cs, d.isDigit = true

def isWord (cs : List Char) : Bool := cs.head?.any isWordStart && cs.all isWordPart

/-- A word that is no keyword. -/
def IsName (cs : List Char) : Prop := isWord cs = true ∧ Keyword.ofWord? cs = none

instance (cs : List Char) : Decidable (IsName cs) := inferInstanceAs (Decidable (_ ∧ _))

end Lexeme

/-- Whether the lexer gives the token for some text. -/
def Token.IsLexical : Token → Prop
  | .integer text => Lexeme.Digits text.toList
  | .decimal text => ∃ whole part, text.toList = whole ++ '.' :: part ∧ Lexeme.Digits whole ∧
    Lexeme.Digits part
  | .string body => Lexeme.Quoted body.toList
  | .identifier name => Lexeme.IsName name.toList
  | _ => True

namespace Lexeme

variable {c : Char} {cs rest : List Char} {t : Token}

theorem digits_cons_takeWhile (h : c.isDigit = true) : Digits (c :: cs.takeWhile Char.isDigit) := by
  refine ⟨List.cons_ne_nil c _, fun d hd => ?_⟩
  rcases List.mem_cons.mp hd with rfl | hd
  · exact h
  · exact List.all_eq_true.mp List.all_takeWhile d hd

theorem isLexical_readString (h : (readString rest).1.content = .ok t) : t.IsLexical := by
  unfold readString at h
  split at h
  · next body left hcut =>
    cases h
    show Quoted (String.ofList body).toList
    rw [String.toList_ofList]
    exact quoted_of_closeQuote hcut
  · cases h

theorem isLexical_readNumber (hc : c.isDigit = true) (h : (readNumber c rest).1.content = .ok t) :
    t.IsLexical := by
  have hwhole : Digits (c :: rest.takeWhile Char.isDigit) := digits_cons_takeWhile hc
  unfold readNumber at h
  dsimp only at h
  split at h
  · next d more _ =>
    split at h
    · next hd =>
      cases h
      exact ⟨_, _, String.toList_ofList, hwhole, digits_cons_takeWhile hd⟩
    · cases h
      show Digits (String.ofList _).toList
      rwa [String.toList_ofList]
  · cases h
    show Digits (String.ofList _).toList
    rwa [String.toList_ofList]

theorem isWord_cons_takeWhile (h : isWordStart c = true) :
    isWord (c :: cs.takeWhile isWordPart) = true := by
  have hcs : (cs.takeWhile isWordPart).all isWordPart = true := List.all_takeWhile
  simp [isWord, h, isWordPart_of_isWordStart h, hcs]

theorem isLexical_wordToken (h : isWord cs = true) : (wordToken cs).IsLexical := by
  unfold wordToken
  split
  · trivial
  · next hword =>
    show IsName (String.ofList cs).toList
    rw [String.toList_ofList]
    exact ⟨h, hword⟩

/-- What is read is lexical. -/
theorem isLexical_read (h : (read c rest).1.content = .ok t) : t.IsLexical := by
  unfold read at h
  split at h
  case h_14 => cases h
  case h_15 => exact isLexical_readString h
  case h_16 =>
    split at h
    · next hc => exact isLexical_readNumber hc h
    · split at h
      · next hc =>
        cases h
        exact isLexical_wordToken (isWord_cons_takeWhile hc)
      · cases h
  all_goals
    cases h
    trivial

end Lexeme
end QueryCanon
