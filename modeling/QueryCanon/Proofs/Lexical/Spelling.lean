/-
What reads back as the token it spells.

The spelling of a lexical token is read as that token, provided that what comes behind it
does not go on with it (`Stops`).
-/
import QueryCanon.Proofs.Lexical.Lexeme

namespace QueryCanon

namespace Gap

open Unicode (isBlank)

variable {c : Char} {cs : List Char}

theorem split_nil : split [] = ([], []) := by
  unfold split
  rfl

theorem split_of_isBlank (h : isBlank c = true) :
    split (c :: cs) = (c :: (split cs).1, (split cs).2) := by
  have hdash : c ≠ '-' := by
    rintro rfl
    revert h
    decide
  have hslash : c ≠ '/' := by
    rintro rfl
    revert h
    decide
  rw [split.eq_def]
  split
  · cases ‹c :: cs = []›
  · next hcs =>
    cases hcs
    exact absurd rfl hdash
  · next hcs =>
    cases hcs
    exact absurd rfl hslash
  · next hcs =>
    cases hcs
    rw [if_pos h]

theorem split_of_solid (hblank : isBlank c = false) (hdash : c ≠ '-') (hslash : c ≠ '/') :
    split (c :: cs) = ([], c :: cs) := by
  unfold split
  split
  · cases ‹c :: cs = []›
  · next hcs =>
    cases hcs
    exact absurd rfl hdash
  · next hcs =>
    cases hcs
    exact absurd rfl hslash
  · next hcs =>
    cases hcs
    rw [if_neg (by simp [hblank])]

end Gap

namespace Lexeme

open Unicode (isBlank)

variable {c : Char} {cs rest : List Char} {t : Token}

/-- What stands here goes on with no token before it, but for an opening parenthesis and a
point, with which nothing can go on. -/
structure Stops (rest : List Char) : Prop where
  word : ∀ d, rest.head? = some d → isWordPart d = false
  quote : rest.head? ≠ some '\''
  equal : rest.head? ≠ some '='
  greater : rest.head? ≠ some '>'
  point : ∀ d more, rest = '.' :: d :: more → d.isDigit = false

theorem stops_cons (hword : isWordPart c = false) (hsigns : c ∉ ['\'', '=', '>', '.'])
    (cs : List Char) : Stops (c :: cs) := by
  simp only [List.mem_cons, List.not_mem_nil, or_false, not_or] at hsigns
  obtain ⟨hquote, hequal, hgreater, hpoint⟩ := hsigns
  refine ⟨fun d hd => ?_, by simpa using hquote, by simpa using hequal, by simpa using hgreater,
    fun d more hcs => ?_⟩
  · cases hd
    exact hword
  · cases hcs
    exact absurd rfl hpoint

theorem stops_nil : Stops [] := ⟨nofun, nofun, nofun, nofun, nofun⟩

theorem Stops.digit (h : Stops rest) : ∀ d, rest.head? = some d → d.isDigit = false := by
  intro d hd
  rw [Bool.eq_false_iff]
  intro hdigit
  have hword := h.word d hd
  rw [isWordPart_of_isDigit hdigit] at hword
  cases hword

theorem read_of_isDigit (h : c.isDigit = true) : read c rest = readNumber c rest := by
  unfold read
  split
  case h_16 => rw [if_pos h]
  all_goals
    exfalso
    revert h
    decide

theorem read_of_isWordStart (h : isWordStart c = true) : read c rest = readWord c rest := by
  unfold read
  split
  case h_16 =>
    rw [if_neg (by simp [not_isDigit_of_isWordStart h]), if_pos h]
  all_goals
    exfalso
    revert h
    decide

theorem read_word (hc : isWordStart c = true) (hcs : ∀ d ∈ cs, isWordPart d = true)
    (hrest : Stops rest) :
    read c (cs ++ rest) = (⟨.ok (wordToken (c :: cs)), c :: cs⟩, rest) := by
  rw [read_of_isWordStart hc, readWord, takeWhile_run hcs hrest.word, dropWhile_run hcs hrest.word]

theorem read_integer (hc : c.isDigit = true) (hcs : ∀ d ∈ cs, d.isDigit = true)
    (hrest : Stops rest) :
    read c (cs ++ rest) = (⟨.ok (.integer (String.ofList (c :: cs))), c :: cs⟩, rest) := by
  rw [read_of_isDigit hc, readNumber, takeWhile_run hcs hrest.digit, dropWhile_run hcs hrest.digit]
  dsimp only
  split
  · next d more =>
    rw [hrest.point d more rfl]
    rfl
  · rfl

theorem read_decimal {d : Char} {ds : List Char} (hc : c.isDigit = true)
    (hcs : ∀ d ∈ cs, d.isDigit = true) (hd : d.isDigit = true) (hds : ∀ e ∈ ds, e.isDigit = true)
    (hrest : Stops rest) :
    read c (cs ++ '.' :: d :: (ds ++ rest)) =
      (⟨.ok (.decimal (String.ofList (c :: (cs ++ '.' :: d :: ds)))), c :: (cs ++ '.' :: d :: ds)⟩,
        rest) := by
  have hpoint : ∀ e, ('.' :: d :: (ds ++ rest)).head? = some e → e.isDigit = false := by
    intro e he
    cases he
    rfl
  rw [read_of_isDigit hc, readNumber, takeWhile_run hcs hpoint, dropWhile_run hcs hpoint]
  show ite _ _ _ = _
  rw [if_pos hd, takeWhile_run hds hrest.digit, dropWhile_run hds hrest.digit]
  rfl

theorem read_string (h : Quoted cs) (hrest : Stops rest) :
    read '\'' (cs ++ '\'' :: rest) =
      (⟨.ok (.string (String.ofList cs)), '\'' :: cs ++ ['\'']⟩, rest) := by
  show readString (cs ++ '\'' :: rest) = _
  rw [readString, closeQuote_append h hrest.quote]

theorem read_less (hequal : rest.head? ≠ some '=') (hgreater : rest.head? ≠ some '>') :
    read '<' rest = (⟨.ok .less, ['<']⟩, rest) := by
  rcases rest with _ | ⟨d, more⟩
  · rfl
  · unfold read
    split <;> simp_all

theorem read_greater (hequal : rest.head? ≠ some '=') :
    read '>' rest = (⟨.ok .greater, ['>']⟩, rest) := by
  rcases rest with _ | ⟨d, more⟩
  · rfl
  · unfold read
    split <;> simp_all

/-- No gap, but `t` stands at the head of the text, and `rest` behind it. -/
def Leads (text : List Char) (t : Token) (rest : List Char) : Prop :=
  ∃ c left, text = c :: left ∧ Gap.split text = ([], text) ∧
    read c left = (⟨.ok t, t.spelling.toList⟩, rest)

/-- No gap, but `t`, written as `cs`, stands at the head of the text, and `rest` behind it. -/
def LeadsAs (cs text : List Char) (t : Token) (rest : List Char) : Prop :=
  ∃ c left, text = c :: left ∧ Gap.split text = ([], text) ∧ read c left = (⟨.ok t, cs⟩, rest)

theorem leadsAs_word {word : List Char} (h : isWord word = true) (hrest : Stops rest) :
    LeadsAs word (word ++ rest) (wordToken word) rest := by
  cases word with
  | nil => cases h
  | cons c cs =>
    simp only [isWord, List.head?_cons, Option.any_some, Bool.and_eq_true, List.all_eq_true] at h
    obtain ⟨hc, hcs⟩ := h
    have hsolid : isBlank c = false := by
      rw [Bool.eq_false_iff]
      intro hblank
      rw [not_isWordStart_of_isBlank hblank] at hc
      cases hc
    have hle := le_of_isWordStart hc
    refine ⟨c, cs ++ rest, rfl, Gap.split_of_solid hsolid ?_ ?_, ?_⟩
    · rintro rfl
      revert hle
      decide
    · rintro rfl
      revert hle
      decide
    · exact read_word hc (fun d hd => hcs d (List.mem_cons_of_mem c hd)) hrest

theorem leads_word {word : List Char} (h : isWord word = true) (hrest : Stops rest)
    (htoken : wordToken word = t) (hspelling : t.spelling.toList = word) :
    Leads (word ++ rest) t rest := by
  have hleads := leadsAs_word h hrest
  rw [htoken] at hleads
  obtain ⟨c, left, htext, hsplit, hread⟩ := hleads
  exact ⟨c, left, htext, hsplit, by rw [hread, hspelling]⟩

theorem split_digit (h : c.isDigit = true) : Gap.split (c :: cs) = ([], c :: cs) := by
  have hdigit := toNat_of_isDigit h
  refine Gap.split_of_solid ?_ ?_ ?_
  · rw [Bool.eq_false_iff]
    simp only [isBlank, Bool.or_eq_true, Bool.and_eq_true, decide_eq_true_eq, beq_iff_eq, ne_eq]
    omega
  · rintro rfl
    revert h
    decide
  · rintro rfl
    revert h
    decide

theorem leads_integer {text : String} (h : Digits text.toList) (hrest : Stops rest) :
    Leads (text.toList ++ rest) (.integer text) rest := by
  obtain ⟨hne, hdigits⟩ := h
  obtain ⟨c, cs, htext⟩ := List.exists_cons_of_ne_nil hne
  rw [htext] at hdigits
  obtain ⟨hc, hcs⟩ := List.forall_mem_cons.mp hdigits
  refine ⟨c, cs ++ rest, by rw [htext]; rfl, by rw [htext]; exact split_digit hc, ?_⟩
  rw [read_integer hc hcs hrest, ← htext, String.ofList_toList]
  rfl

theorem leads_decimal {text : String} (h : (Token.decimal text).IsLexical) (hrest : Stops rest) :
    Leads (text.toList ++ rest) (.decimal text) rest := by
  obtain ⟨whole, part, htext, ⟨hwhole, hwholeDigits⟩, hpart, hpartDigits⟩ := h
  obtain ⟨c, cs, rfl⟩ := List.exists_cons_of_ne_nil hwhole
  obtain ⟨d, ds, rfl⟩ := List.exists_cons_of_ne_nil hpart
  obtain ⟨hc, hcs⟩ := List.forall_mem_cons.mp hwholeDigits
  obtain ⟨hd, hds⟩ := List.forall_mem_cons.mp hpartDigits
  have hall : text.toList ++ rest = c :: (cs ++ '.' :: d :: (ds ++ rest)) := by
    rw [htext]
    simp
  refine ⟨c, cs ++ '.' :: d :: (ds ++ rest), hall, by rw [hall]; exact split_digit hc, ?_⟩
  rw [read_decimal hc hcs hd hds hrest]
  rw [← List.cons_append, ← htext, String.ofList_toList]
  rfl

theorem leads_string {body : String} (h : Quoted body.toList) (hrest : Stops rest) :
    Leads ((Token.string body).spelling.toList ++ rest) (.string body) rest := by
  have hspelling : (Token.string body).spelling.toList = '\'' :: (body.toList ++ ['\'']) := by
    simp [Token.spelling]
  have hall : (Token.string body).spelling.toList ++ rest =
      '\'' :: (body.toList ++ '\'' :: rest) := by
    rw [hspelling]
    simp
  have hread := read_string h hrest
  rw [String.ofList_toList, List.cons_append, ← hspelling] at hread
  refine ⟨_, _, hall, ?_, hread⟩
  rw [hall]
  exact Gap.split_of_solid (by decide) (by decide) (by decide)

theorem isWord_spelling (k : Keyword) : isWord (Token.keyword k).spelling.toList = true := by
  cases k <;> decide +kernel

theorem wordToken_spelling (k : Keyword) :
    wordToken (Token.keyword k).spelling.toList = .keyword k := by
  cases k <;> decide +kernel

/-- Nothing can go on with these. -/
def leans : Token → Bool
  | .leftParen => true
  | .dot => true
  | _ => false

/-- The spelling of a token is read as that token. -/
theorem leads_spelling (h : t.IsLexical) (hrest : leans t = false → Stops rest) :
    Leads (t.spelling.toList ++ rest) t rest := by
  -- A sign is read by its first character, which begins no gap.
  have hsymbol : ∀ {c : Char} {left : List Char}, isBlank c = false → c ≠ '-' → c ≠ '/' →
      t.spelling.toList ++ rest = c :: left → read c left = (⟨.ok t, t.spelling.toList⟩, rest) →
      Leads (t.spelling.toList ++ rest) t rest := by
    intro c left hblank hdash hslash htext hread
    exact ⟨c, left, htext, by rw [htext]; exact Gap.split_of_solid hblank hdash hslash, hread⟩
  cases t with
  | integer text => exact leads_integer h (hrest rfl)
  | decimal text => exact leads_decimal h (hrest rfl)
  | string body => exact leads_string h (hrest rfl)
  | identifier name =>
    obtain ⟨hword, hkeyword⟩ := h
    refine leads_word hword (hrest rfl) ?_ rfl
    show wordToken name.toList = _
    rw [wordToken, hkeyword, String.ofList_toList]
  | keyword k => exact leads_word (isWord_spelling k) (hrest rfl) (wordToken_spelling k) rfl
  | less =>
    have hread := read_less (hrest rfl).equal (hrest rfl).greater
    exact hsymbol (by decide) (by decide) (by decide) rfl hread
  | greater =>
    have hread := read_greater (hrest rfl).equal
    exact hsymbol (by decide) (by decide) (by decide) rfl hread
  | _ => exact hsymbol (by decide) (by decide) (by decide) rfl rfl

end Lexeme
end QueryCanon
