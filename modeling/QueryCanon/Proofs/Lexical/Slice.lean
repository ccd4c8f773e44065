/-
Slices of a text, and the tokens that they spell.

Offsets count bytes, so a slice is cut by the UTF-8 length of its characters.  `SpelledBy`
says what stands in the text where a token is placed; what is read as a token spells it
(`spelledBy_read`).
-/
import QueryCanon.Proofs.Lexical.Lexeme

namespace QueryCanon

/-- The text from the byte `n` on. -/
def dropBytes : Nat → List Char → List Char
  | 0, cs => cs
  | _, [] => []
  | n + 1, c :: cs => dropBytes (n + 1 - c.utf8Size) cs

/-- The first `n` bytes of the text. -/
def takeBytes : Nat → List Char → List Char
  | 0, _ => []
  | _, [] => []
  | n + 1, c :: cs => c :: takeBytes (n + 1 - c.utf8Size) cs

/-- What stands in the text at the span. -/
def Span.slice (s : Span) (text : List Char) : List Char :=
  takeBytes s.length (dropBytes s.start text)

/-- Whether a character of the text, or its end, is at the byte `n`. -/
def IsBoundary (text : List Char) (n : Nat) : Prop :=
  ∃ before behind, text = before ++ behind ∧ n = utf8Length before

variable {before cs behind text : List Char} {n : Nat}

theorem utf8Length_cons (c : Char) (cs : List Char) :
    ∃ n, utf8Length (c :: cs) = n + 1 ∧ n + 1 - c.utf8Size = utf8Length cs := by
  have hpos := c.utf8Size_pos
  exact ⟨c.utf8Size - 1 + utf8Length cs, by simp only [utf8Length]; omega, by omega⟩

theorem utf8Length_pos (h : cs ≠ []) : 0 < utf8Length cs := by
  cases cs with
  | nil => exact absurd rfl h
  | cons c cs =>
    obtain ⟨n, hn, -⟩ := utf8Length_cons c cs
    omega

theorem dropBytes_append (before behind : List Char) :
    dropBytes (utf8Length before) (before ++ behind) = behind := by
  induction before with
  | nil => cases behind <;> rfl
  | cons c before ih =>
    obtain ⟨n, hn, hrest⟩ := utf8Length_cons c before
    rw [hn, List.cons_append, dropBytes, hrest, ih]

theorem takeBytes_append (cs behind : List Char) :
    takeBytes (utf8Length cs) (cs ++ behind) = cs := by
  induction cs with
  | nil => cases behind <;> rfl
  | cons c cs ih =>
    obtain ⟨n, hn, hrest⟩ := utf8Length_cons c cs
    rw [hn, List.cons_append, takeBytes, hrest, ih]

theorem slice_append (before cs behind : List Char) :
    (Span.mk (utf8Length before) (utf8Length before + utf8Length cs)).slice
      (before ++ (cs ++ behind)) = cs := by
  rw [Span.slice, dropBytes_append, Span.length, Nat.add_sub_cancel_left, takeBytes_append]

theorem IsBoundary.le (h : IsBoundary text n) : n ≤ utf8Length text := by
  obtain ⟨before, behind, rfl, rfl⟩ := h
  rw [utf8Length_append]
  exact Nat.le_add_right _ _

/-! ### Spellings -/

open Lexeme (isWord readString readNumber wordToken)

/-- Whether the token may stand in a text as these characters. -/
def Token.SpelledBy : Token → List Char → Prop
  | .keyword k, cs => cs.map Char.toUpper = k.spelling.toList
  | .notEq, cs => cs = ['<', '>'] ∨ cs = ['!', '=']
  | .identifier name, cs =>
    cs = name.toList ∧ isWord cs = true ∧ ∀ k : Keyword, cs.map Char.toUpper ≠ k.spelling.toList
  | t, cs => cs = t.spelling.toList ∧ t.IsLexical

theorem ofWord?_eq_none {word : List Char} (h : Keyword.ofWord? word = none) (k : Keyword) :
    word.map Char.toUpper ≠ k.spelling.toList := by
  have hk := List.find?_eq_none.mp h k (Keyword.mem_all k)
  exact fun hword => hk (by simp [hword])

theorem spelledBy_wordToken (h : isWord cs = true) : (wordToken cs).SpelledBy cs := by
  unfold wordToken
  split
  · next k hk => exact (Keyword.spelling_of_ofWord? hk).symm
  · next hk =>
    exact ⟨String.toList_ofList.symm, h, ofWord?_eq_none hk⟩

variable {c : Char} {rest : List Char} {t : Token}

theorem spelledBy_readString (h : (readString rest).1.content = .ok t) :
    t.SpelledBy (readString rest).1.text := by
  have hlexical := Lexeme.isLexical_readString h
  unfold readString at h ⊢
  split at h
  · next body left hcut =>
    cases h
    exact ⟨by simp [Token.spelling], hlexical⟩
  · cases h

theorem spelledBy_readNumber (hc : c.isDigit = true)
    (h : (readNumber c rest).1.content = .ok t) : t.SpelledBy (readNumber c rest).1.text := by
  have hlexical := Lexeme.isLexical_readNumber hc h
  unfold readNumber at h ⊢
  dsimp only at h ⊢
  split at h
  · next d more hleft =>
    split at h
    · next hd =>
      cases h
      rw [if_pos hd]
      exact ⟨String.toList_ofList.symm, hlexical⟩
    · next hd =>
      cases h
      rw [if_neg hd]
      exact ⟨String.toList_ofList.symm, hlexical⟩
  · cases h
    exact ⟨String.toList_ofList.symm, hlexical⟩

/-- What is read as a token spells it. -/
theorem spelledBy_read (h : (Lexeme.read c rest).1.content = .ok t) :
    t.SpelledBy (Lexeme.read c rest).1.text := by
  unfold Lexeme.read at h ⊢
  split at h
  case h_9 =>
    cases h
    exact .inl rfl
  case h_13 =>
    cases h
    exact .inr rfl
  case h_14 => cases h
  case h_15 => exact spelledBy_readString h
  case h_16 =>
    split at h
    · next hc =>
      rw [if_pos hc]
      exact spelledBy_readNumber hc h
    · next hc =>
      rw [if_neg hc]
      split at h
      · next hstart =>
        cases h
        rw [if_pos hstart]
        exact spelledBy_wordToken (Lexeme.isWord_cons_takeWhile hstart)
      · cases h
  all_goals
    cases h
    exact ⟨rfl, trivial⟩

end QueryCanon
