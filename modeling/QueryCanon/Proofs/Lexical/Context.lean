/-
A text with more around it, or with its end cut off.

A lexeme is taken by looking at most two characters past its end, so what it is does not
change if what stands behind it is replaced by something that stops it as well
(`read_instead`).  Something that `Stops` everything may be put behind the text, and any part
of what is left may be cut off.  A line break stops every lexeme and closes every gap.  So the
tokens of a text stay what they are in front of a line break, and behind it reading begins anew
(`tokenize_append_newline`), at a place that only moves the spans (`tokenize_shift`).
-/
import QueryCanon.Proofs.Lexical.Layout
import QueryCanon.Proofs.Lexical.Tiling

namespace QueryCanon

namespace Lexeme

variable {c : Char} {cs rest body left left' : List Char} {t : Token}

/-! ### Lexemes -/

/-- The quote that closes a string has no quote behind it. -/
theorem head?_of_closeQuote (h : closeQuote cs = some (body, left)) : left.head? ≠ some '\'' := by
  fun_induction closeQuote cs generalizing body left with
  | case1 => cases h
  | case2 rest ih =>
    obtain ⟨⟨b, l⟩, hcut, he⟩ := Option.map_eq_some_iff.mp h
    cases he
    exact ih hcut
  | case3 rest hquotes =>
    cases h
    intro hhead
    obtain ⟨more, hmore⟩ := List.head?_eq_some_iff.mp hhead
    exact hquotes more hmore
  | case4 c rest _ _ ih =>
    obtain ⟨⟨b, l⟩, hcut, he⟩ := Option.map_eq_some_iff.mp h
    cases he
    exact ih hcut

theorem not_head? {d : Char} (h : ∀ more, cs = d :: more → False) : cs.head? ≠ some d := by
  intro hhead
  obtain ⟨more, hmore⟩ := List.head?_eq_some_iff.mp hhead
  exact h more hmore

/-- Whether a lexeme that ends in front of `left` ends in front of `left'` too. -/
structure StopsAs (left left' : List Char) : Prop where
  head : ∀ d, left'.head? = some d →
    left.head? = some d ∨ isWordPart d = false ∧ d ∉ ['\'', '=', '>']
  point : ∀ d more, left' = '.' :: d :: more →
    d.isDigit = false ∨ ∃ more', left = '.' :: d :: more'

/-- With something that stops everything behind it, a text stops what it stopped. -/
theorem stopsAs_append (hrest : Stops rest) : StopsAs left (left ++ rest) := by
  constructor
  · intro d hd
    cases left with
    | nil =>
      refine .inr ⟨hrest.word d hd, ?_⟩
      have hd' : rest.head? = some d := hd
      simp only [List.mem_cons, List.not_mem_nil, or_false, not_or]
      exact ⟨fun h => hrest.quote (h ▸ hd'), fun h => hrest.equal (h ▸ hd'),
        fun h => hrest.greater (h ▸ hd')⟩
    | cons e left => exact .inl hd
  · intro d more hleft
    -- The point and the character behind it stand in `left`, or behind it, or on both sides.
    rcases left with _ | ⟨a, _ | ⟨b, left⟩⟩
    · exact .inl (hrest.point d more hleft)
    · cases hleft
      exact .inl (hrest.digit d rfl)
    · cases hleft
      exact .inr ⟨left, rfl⟩

/-- A part of a text stops what the whole stops. -/
theorem stopsAs_prefix (h : left' <+: left) : StopsAs left left' := by
  obtain ⟨more, rfl⟩ := h
  constructor
  · intro d hd
    obtain ⟨behind, rfl⟩ := List.head?_eq_some_iff.mp hd
    exact .inl rfl
  · rintro d behind rfl
    exact .inr ⟨behind ++ more, rfl⟩

theorem StopsAs.run {p : Char → Bool} (h : StopsAs left left')
    (hp : ∀ d, isWordPart d = false → p d = false) (hleft : ∀ d, left.head? = some d → p d = false) :
    ∀ d, left'.head? = some d → p d = false := by
  intro d hd
  rcases h.head d hd with hhead | ⟨hword, -⟩
  · exact hleft d hhead
  · exact hp d hword

theorem StopsAs.sign {d : Char} (h : StopsAs left left') (hd : d ∈ ['\'', '=', '>'])
    (hleft : left.head? ≠ some d) : left'.head? ≠ some d := by
  intro hhead
  rcases h.head d hhead with hhead' | ⟨-, hsign⟩
  · exact hleft hhead'
  · exact hsign hd

theorem not_head?_dropWhile (p : Char → Bool) (cs : List Char) :
    ∀ d, (cs.dropWhile p).head? = some d → p d = false := by
  intro d hd
  have hstop := List.head?_dropWhile_not p cs
  rw [hd] at hstop
  simpa using hstop

theorem not_isDigit_of_isWordPart (d : Char) (h : isWordPart d = false) : d.isDigit = false := by
  rw [Bool.eq_false_iff]
  intro hdigit
  rw [isWordPart_of_isDigit hdigit] at h
  cases h

theorem all_takeWhile (p : Char → Bool) (cs : List Char) : ∀ d ∈ cs.takeWhile p, p d = true :=
  List.all_eq_true.mp List.all_takeWhile

theorem readString_instead (h : (readString cs).1.content = .ok t)
    (hleft : StopsAs (readString cs).2 left') :
    ∃ cs', '\'' :: cs' = (readString cs).1.text ++ left' ∧
      readString cs' = ((readString cs).1, left') := by
  cases hcut : closeQuote cs with
  | none =>
    rw [readString, hcut] at h
    cases h
  | some cut =>
    obtain ⟨body, left⟩ := cut
    rw [readString, hcut] at hleft ⊢
    have halone := hleft.sign (by simp) (head?_of_closeQuote hcut)
    have hagain := closeQuote_append (quoted_of_closeQuote hcut) halone
    refine ⟨body ++ '\'' :: left', by simp, ?_⟩
    rw [readString, hagain]

theorem readNumber_of_point {d : Char} {more : List Char}
    (hleft : cs.dropWhile Char.isDigit = '.' :: d :: more) (hd : d.isDigit = true) :
    readNumber c cs =
      let text := c :: cs.takeWhile Char.isDigit ++ '.' :: d :: more.takeWhile Char.isDigit
      (⟨.ok (.decimal (String.ofList text)), text⟩, more.dropWhile Char.isDigit) := by
  rw [readNumber, hleft]
  exact if_pos hd

theorem readNumber_of_no_point
    (hleft : ∀ d more, cs.dropWhile Char.isDigit = '.' :: d :: more → d.isDigit = false) :
    readNumber c cs =
      let whole := c :: cs.takeWhile Char.isDigit
      (⟨.ok (.integer (String.ofList whole)), whole⟩, cs.dropWhile Char.isDigit) := by
  unfold readNumber
  dsimp only
  split
  · next d more h =>
    rw [hleft d more h]
    exact if_neg Bool.false_ne_true
  · rfl

theorem readNumber_instead (hleft : StopsAs (readNumber c cs).2 left') :
    ∃ cs', c :: cs' = (readNumber c cs).1.text ++ left' ∧
      readNumber c cs' = ((readNumber c cs).1, left') := by
  have htake := all_takeWhile Char.isDigit cs
  by_cases hpoint : ∃ d more, cs.dropWhile Char.isDigit = '.' :: d :: more ∧ d.isDigit = true
  · obtain ⟨d, more, hcs, hd⟩ := hpoint
    rw [readNumber_of_point hcs hd] at hleft ⊢
    have hrun := hleft.run not_isDigit_of_isWordPart (not_head?_dropWhile Char.isDigit more)
    have hpart := all_takeWhile Char.isDigit more
    have hbehind : ∀ e, ('.' :: d :: (more.takeWhile Char.isDigit ++ left')).head? = some e →
        e.isDigit = false := by
      intro e he
      cases he
      decide
    refine ⟨cs.takeWhile Char.isDigit ++ '.' :: d :: (more.takeWhile Char.isDigit ++ left'),
      by simp, ?_⟩
    rw [readNumber_of_point (dropWhile_run htake hbehind) hd, takeWhile_run htake hbehind,
      takeWhile_run hpart hrun, dropWhile_run hpart hrun]
  · have hnone : ∀ d more, cs.dropWhile Char.isDigit = '.' :: d :: more → d.isDigit = false := by
      intro d more hcs
      rw [Bool.eq_false_iff]
      exact fun hd => hpoint ⟨d, more, hcs, hd⟩
    rw [readNumber_of_no_point hnone] at hleft ⊢
    have hrun := hleft.run not_isDigit_of_isWordPart (not_head?_dropWhile Char.isDigit cs)
    have hdrop := dropWhile_run htake hrun
    refine ⟨cs.takeWhile Char.isDigit ++ left', rfl, ?_⟩
    rw [readNumber_of_no_point, takeWhile_run htake hrun, hdrop]
    intro d more hcs
    rw [hdrop] at hcs
    rcases hleft.point d more hcs with hd | ⟨more', hcs'⟩
    · exact hd
    · exact hnone d more' hcs'

theorem readWord_instead (hleft : StopsAs (readWord c cs).2 left') :
    ∃ cs', c :: cs' = (readWord c cs).1.text ++ left' ∧
      readWord c cs' = ((readWord c cs).1, left') := by
  have htake := all_takeWhile isWordPart cs
  have hrun := hleft.run (fun _ h => h) (not_head?_dropWhile isWordPart cs)
  refine ⟨cs.takeWhile isWordPart ++ left', rfl, ?_⟩
  rw [readWord, readWord, takeWhile_run htake hrun, dropWhile_run htake hrun]

/-- What is read as a token is read as that token in front of anything that stops it as what
stands behind it does. -/
theorem read_instead (h : (read c cs).1.content = .ok t) (hleft : StopsAs (read c cs).2 left') :
    ∃ cs', c :: cs' = (read c cs).1.text ++ left' ∧ read c cs' = ((read c cs).1, left') := by
  unfold read at h
  split at h
  case h_10 hequal hgreater =>
    have hequal : cs.head? ≠ some '=' := not_head? hequal
    have hgreater : cs.head? ≠ some '>' := not_head? hgreater
    rw [read_less hequal hgreater] at hleft ⊢
    exact ⟨left', rfl, read_less (hleft.sign (by simp) hequal) (hleft.sign (by simp) hgreater)⟩
  case h_12 hequal =>
    have hequal : cs.head? ≠ some '=' := not_head? hequal
    rw [read_greater hequal] at hleft ⊢
    exact ⟨left', rfl, read_greater (hleft.sign (by simp) hequal)⟩
  case h_14 => cases h
  case h_15 => exact readString_instead h hleft
  case h_16 =>
    split at h
    · next hc =>
      simp only [read_of_isDigit hc] at hleft ⊢
      exact readNumber_instead hleft
    · split at h
      · next hc =>
        simp only [read_of_isWordStart hc] at hleft ⊢
        exact readWord_instead hleft
      · cases h
  all_goals exact ⟨_, rfl, rfl⟩

end Lexeme

/-! ### Gaps -/

namespace Gap

open Lexeme (Stops)
open Unicode (isBlank)

variable {c : Char} {cs text gap gap' : List Char} {t : Token}

theorem IsGap.append (h : IsGap gap) (h' : IsGap gap') : IsGap (gap ++ gap') := by
  induction h with
  | nil => exact h'
  | blank hblank _ ih => exact ih.blank hblank
  | line hbody _ ih =>
    rw [List.cons_append, List.cons_append, List.append_assoc, List.cons_append]
    exact ih.line hbody
  | block hbody _ ih =>
    rw [List.cons_append, List.cons_append, List.append_assoc, List.cons_append, List.cons_append]
    exact ih.block hbody

/-- A line break ends the comment that a gap may have left open. -/
theorem isGap_newline (h : IsGap gap ∨ IsOpenGap gap) : IsGap (gap ++ ['\n']) := by
  rcases h with hgap | ⟨before, body, rfl, hbefore, hbody⟩
  · exact hgap.append (.blank isBlank_newline .nil)
  · rw [List.append_assoc]
    exact hbefore.append (.line hbody .nil)

theorem not_isBlank_of_split (h : (split text).2 = c :: cs) : isBlank c = false := by
  fun_induction split text with
  | case1 => cases h
  | case2 rest more ih => exact ih h
  | case3 rest body left hcut more ih => exact ih h
  | case4 =>
    cases h
    decide
  | case5 c' rest _ _ hblank more ih => exact ih h
  | case6 c' rest _ _ hblank =>
    cases h
    simpa using hblank

/-- A dash or a slash begins no token. -/
theorem solid_of_token (h : (Lexeme.read c cs).1.content = .ok t) : c ≠ '-' ∧ c ≠ '/' := by
  constructor
  · rintro rfl
    cases h
  · rintro rfl
    unfold Lexeme.read at h
    split at h
    case h_14 => cases h
    case h_16 => cases h
    all_goals contradiction

/-- The gap before a token is the same whatever stands behind the character that begins the
token. -/
theorem split_before_token (h : (split text).2 = c :: cs)
    (htoken : (Lexeme.read c cs).1.content = .ok t) (cs' : List Char) :
    split ((split text).1 ++ c :: cs') = ((split text).1, c :: cs') := by
  have hgap : IsGap (split text).1 := by
    rcases split_isGap text with hgap | ⟨-, hnil⟩
    · exact hgap
    · rw [h] at hnil
      cases hnil
  obtain ⟨hdash, hslash⟩ := solid_of_token htoken
  rw [split_append hgap, split_of_solid (not_isBlank_of_split h) hdash hslash, List.append_nil]

end Gap

/-! ### Places further on -/

theorem mapError_ok {ε ε' α : Type} (f : ε → ε') (a : α) :
    (Except.ok a : Except ε α).mapError f = .ok a := rfl

theorem mapError_error {ε ε' α : Type} (f : ε → ε') (e : ε) :
    (Except.error e : Except ε α).mapError f = .error (f e) := rfl

/-- The same place with `n` bytes more before it. -/
def Span.shift (n : Nat) (s : Span) : Span := ⟨s.start + n, s.stop + n⟩

def Placed.shift (n : Nat) (p : Placed) : Placed := ⟨p.token, p.span.shift n⟩

def LexError.shift (n : Nat) (e : LexError) : LexError := ⟨e.fault, e.span.shift n⟩

namespace Lexer

open Lexeme (Stops StopsAs)

variable {l after : Lexer} {p : Placed} {e : LexError} {text rest left : List Char}
  {placed : List Placed}

/-- With `n` bytes more before the text. -/
def shift (n : Nat) (l : Lexer) : Lexer := { l with pos := l.pos + n }

/-- What stands before a text only moves its tokens. -/
theorem next_shift (n : Nat) (l : Lexer) :
    (l.shift n).next =
      ((l.next.1.map (Option.map (Placed.shift n))).mapError (LexError.shift n),
        l.next.2.shift n) := by
  unfold next
  dsimp only [shift]
  cases (Gap.split l.rest).2 with
  | nil => simp [Except.map, mapError_ok, Nat.add_right_comm]
  | cons c rest =>
    dsimp only
    cases (Lexeme.read c rest).1.content with
    | error fault =>
      simp [Except.map, mapError_error, LexError.shift, Span.shift, Nat.add_right_comm]
    | ok t =>
      simp [Except.map, mapError_ok, Placed.shift, Span.shift, Nat.add_right_comm]

theorem tokenize_shift (n : Nat) (l : Lexer) :
    (l.shift n).tokenize.1 =
      (l.tokenize.1.map (List.map (Placed.shift n))).mapError (LexError.shift n) := by
  fun_induction tokenize l with
  | case1 l e after hnext =>
    have hnext' := next_shift n l
    rw [hnext] at hnext'
    exact tokenize_of_error hnext'
  | case2 l after hnext =>
    have hnext' := next_shift n l
    rw [hnext] at hnext'
    exact tokenize_of_end hnext'
  | case3 l p after hnext more ih =>
    have hnext' := next_shift n l
    rw [hnext] at hnext'
    rw [tokenize_of_token hnext', ih]
    dsimp only [more]
    cases after.tokenize.1 <;> rfl

/-- A call takes its part of the text and leaves the rest behind it. -/
theorem next_pos (l : Lexer) :
    l.next.2.pos + utf8Length l.next.2.rest = l.pos + utf8Length l.rest := by
  by_cases hleft : (Gap.split l.rest).2 = []
  · rw [(next_atEnd hleft).2]
    rfl
  · obtain ⟨gap, cs, behind, answer, -, -, hrest, hnext, -⟩ := next_taken hleft
    rw [hnext, hrest, utf8Length_append, utf8Length_append]
    dsimp only
    omega

/-- A token is read alike in front of anything that stops it as what stands behind it does. -/
theorem next_instead (h : l.next = (.ok (some p), after)) (hleft : StopsAs after.rest left) :
    ∃ taken, l.rest = taken ++ after.rest ∧ after.pos = l.pos + utf8Length taken ∧
      (Lexer.mk l.pos (taken ++ left)).next = (.ok (some p), Lexer.mk after.pos left) := by
  unfold next at h
  dsimp only at h
  split at h
  · cases h
  · next c cs hcs =>
    split at h
    · next t ht =>
      cases h
      obtain ⟨cs', htext, hread⟩ := Lexeme.read_instead ht hleft
      refine ⟨(Gap.split l.rest).1 ++ (Lexeme.read c cs).1.text, ?_, ?_, ?_⟩
      · rw [List.append_assoc, Lexeme.append_read, ← hcs, Gap.append_split]
      · rw [utf8Length_append, Nat.add_assoc]
      · unfold next
        rw [List.append_assoc, ← htext, Gap.split_before_token hcs ht]
        dsimp only
        rw [hread]
        dsimp only
        rw [ht]
    · cases h

/-- A token is read alike in front of anything that stops it. -/
theorem next_append (hrest : Stops rest) (h : l.next = (.ok (some p), after)) :
    (Lexer.mk l.pos (l.rest ++ rest)).next =
      (.ok (some p), Lexer.mk after.pos (after.rest ++ rest)) := by
  obtain ⟨taken, htext, -, hnext⟩ := next_instead h (Lexeme.stopsAs_append hrest)
  rw [htext, List.append_assoc]
  exact hnext

/-- Where no token is left there is nothing but a gap. -/
theorem gap_of_next_end (h : l.next = (.ok none, after)) :
    Gap.IsGap l.rest ∨ Gap.IsOpenGap l.rest := by
  by_cases hleft : (Gap.split l.rest).2 = []
  · exact (next_atEnd hleft).1
  · obtain ⟨gap, cs, behind, answer, -, -, -, hnext, hanswer⟩ := next_taken hleft
    rw [h] at hnext
    rcases hanswer with ⟨t, rfl, -⟩ | ⟨fault, rfl⟩ <;> cases hnext

theorem stops_newline (rest : List Char) : Stops ('\n' :: rest) :=
  Lexeme.stops_cons (by decide) (by decide) rest

/-- The end of a text, with a line break behind it, is a gap. -/
theorem next_append_newline (h : l.next = (.ok none, after)) (rest : List Char) :
    (Lexer.mk l.pos (l.rest ++ '\n' :: rest)).next =
      (Lexer.mk (l.pos + utf8Length l.rest + 1) rest).next := by
  have hgap := next_gap (Gap.isGap_newline (gap_of_next_end h)) l.pos rest
  rw [List.append_assoc, List.singleton_append, utf8Length_append, ← Nat.add_assoc] at hgap
  exact hgap

/-- Behind a line break reading begins anew. -/
theorem tokenize_append_newline (h : l.tokenize.1 = .ok placed) (rest : List Char) :
    (Lexer.mk l.pos (l.rest ++ '\n' :: rest)).tokenize.1 =
      (Lexer.mk (l.pos + utf8Length l.rest + 1) rest).tokenize.1.map (placed ++ ·) := by
  induction l using tokenize.induct generalizing placed with
  | case1 l e after hnext =>
    rw [tokenize_of_error hnext] at h
    cases h
  | case2 l after hnext =>
    rw [tokenize_of_end hnext] at h
    cases h
    rw [tokenize_congr (next_append_newline hnext rest)]
    cases (Lexer.mk (l.pos + utf8Length l.rest + 1) rest).tokenize.1 <;> rfl
  | case3 l p after hnext ih =>
    rw [tokenize_of_token hnext] at h
    cases hmore : after.tokenize.1 with
    | error e =>
      rw [hmore] at h
      cases h
    | ok behind =>
      rw [hmore] at h
      cases h
      have hpos := next_pos l
      rw [hnext] at hpos
      dsimp only at hpos
      rw [tokenize_of_token (next_append (stops_newline rest) hnext), ih hmore, hpos]
      cases (Lexer.mk (l.pos + utf8Length l.rest + 1) rest).tokenize.1 <;> rfl

end Lexer

/-! ### Texts -/

theorem utf8ByteSize_eq (text : String) : text.utf8ByteSize = utf8Length text.toList := by
  rw [← String.ofList_toList (s := text), String.toList_ofList]
  induction text.toList with
  | nil => rfl
  | cons c cs ih =>
    rw [String.ofList_cons, String.utf8ByteSize_append, String.utf8ByteSize_singleton, ih,
      utf8Length]

namespace Lexer

theorem after_pos (l : Lexer) (n : Nat) :
    (l.after n).pos + utf8Length (l.after n).rest = l.pos + utf8Length l.rest := by
  induction n with
  | zero => rfl
  | succ n ih => exact (next_pos (l.after n)).trans ih

end Lexer

namespace Parser

/-- A parser begins with all tokens of its text, and the text has all its bytes. -/
theorem ofText_eq (text : String) :
    ofText text = (Lexer.ofText text).tokenize.1.map fun placed => ⟨placed, text.utf8ByteSize⟩ := by
  obtain ⟨placed, -, hafter, ⟨hend, htokens⟩ | ⟨e, -, htokens⟩⟩ :=
    Lexer.tokenize_answers (Lexer.ofText text)
  · have hin := Lexer.standsIn_after (Lexer.standsIn_ofText text) placed.length
    have hrest : (Lexer.ofText text).tokenize.2.rest = [] := by
      rw [hafter]
      exact (Lexer.next_tile hin).2.2.2 hend
    have hpos : (Lexer.ofText text).tokenize.2.pos = text.utf8ByteSize := by
      have hall := Lexer.after_pos (Lexer.ofText text) (placed.length + 1)
      rw [← hafter, hrest] at hall
      rw [utf8ByteSize_eq]
      simpa [utf8Length, Lexer.ofText] using hall
    unfold ofText
    rw [← Prod.eta (Lexer.ofText text).tokenize, htokens]
    dsimp only
    rw [hpos]
    rfl
  · unfold ofText
    rw [← Prod.eta (Lexer.ofText text).tokenize, htokens]
    rfl

end Parser
end QueryCanon
