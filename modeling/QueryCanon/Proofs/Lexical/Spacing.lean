/-
What stands between the tokens of a canonical text.

Canonical layout puts its tokens at places that are known beforehand, and every character
belongs to one of them or is a space between two that need one (`chars_cases`).  But for strings
no token has a blank, a dash or a slash in it, so the blanks of the text are these spaces, and
nothing in it begins a comment (`tidy_chars`).
-/
import QueryCanon.Proofs.Lexical.Relayout

namespace QueryCanon

open Unicode (isBlank)

/-- Whether the byte `n` belongs to a string. -/
def InString (placed : List Placed) (n : Nat) : Prop :=
  ∃ p ∈ placed, (∃ body, p.token = .string body) ∧ p.span.start ≤ n ∧ n < p.span.stop

/-- Whether a text with these tokens is tidy outside its strings. -/
structure Tidy (text : List Char) (placed : List Placed) : Prop where
  /-- Every blank is a space of its own within the text, which has no opening parenthesis before
  it and neither a closing parenthesis nor a comma behind it. -/
  blank : ∀ before c behind, text = before ++ c :: behind →
    ¬InString placed (utf8Length before) → isBlank c = true →
    c = ' ' ∧ (∃ a, before.getLast? = some a ∧ a ∉ [' ', '(']) ∧
      ∃ b, behind.head? = some b ∧ b ∉ [' ', ')', ',']
  comment : ∀ before opening behind, text = before ++ (opening ++ behind) →
    ¬InString placed (utf8Length before) → opening ≠ ['-', '-'] ∧ opening ≠ ['/', '*']
  keyword : ∀ p ∈ placed, ∀ k, p.token = .keyword k → k ≠ .TRUE → k ≠ .FALSE →
    p.span.slice text = k.spelling.toList
  truth : ∀ p ∈ placed,
    (p.token = .keyword .TRUE → p.span.slice text = "true".toList) ∧
      (p.token = .keyword .FALSE → p.span.slice text = "false".toList)

variable {c : Char} {cs before behind rest : List Char} {t u : Token} {ts : List Token}

/-! ### Spellings -/

namespace Token

open Lexeme (isWord isWordPart)

/-- What holds of every character of a token that is no string. -/
structure Solid (t : Token) (c : Char) : Prop where
  blank : isBlank c = false
  dash : c ≠ '-'
  slash : c ≠ '/'
  opening : c = '(' → t = .leftParen
  closing : c = ')' → t = .rightParen
  comma : c = ',' → t = .comma

/-- The characters of words and numbers. -/
def inWord (c : Char) : Bool := isWordPart c || c == '.'

theorem solid_of_inWord (h : inWord c = true) : t.Solid c := by
  have hsigns : ['-', '/', '(', ')', ','].all (fun d => !inWord d) = true := by decide
  have hne : ∀ d ∈ ['-', '/', '(', ')', ','], c ≠ d := by
    rintro d hd rfl
    have hsign := List.all_eq_true.mp hsigns c hd
    rw [h] at hsign
    cases hsign
  have hblank : isBlank c = false := by
    rw [Bool.eq_false_iff]
    intro hblank
    rw [inWord, isWordPart_of_isBlank hblank, Bool.false_or, beq_iff_eq] at h
    subst h
    revert hblank
    decide
  exact ⟨hblank, hne _ (by simp), hne _ (by simp), fun hc => absurd hc (hne _ (by simp)),
    fun hc => absurd hc (hne _ (by simp)), fun hc => absurd hc (hne _ (by simp))⟩

theorem solid_quote : t.Solid '\'' := by
  refine ⟨by decide, by decide, by decide, ?_, ?_, ?_⟩ <;> exact fun h => absurd h (by decide)

/-- The tokens that are signs, but for the point. -/
def signs : List Token :=
  [.star, .eq, .notEq, .less, .lessEq, .greater, .greaterEq, .leftParen, .rightParen, .comma,
   .semicolon]

theorem solid_sign (h : t ∈ signs) :
    t.spelling.toList ≠ [] ∧ ∀ c ∈ t.spelling.toList, t.Solid c := by
  have hsigns : ∀ t ∈ signs, t.spelling.toList ≠ [] ∧ t.spelling.toList.all (fun c =>
      isBlank c = false ∧ c ≠ '-' ∧ c ≠ '/' ∧ (c = '(' → t = .leftParen) ∧
        (c = ')' → t = .rightParen) ∧ (c = ',' → t = .comma)) = true := by
    decide
  obtain ⟨hne, hsolid⟩ := hsigns t h
  refine ⟨hne, fun c hc => ?_⟩
  obtain ⟨hblank, hdash, hslash, hopening, hclosing, hcomma⟩ :=
    of_decide_eq_true (List.all_eq_true.mp hsolid c hc)
  exact ⟨hblank, hdash, hslash, hopening, hclosing, hcomma⟩

theorem inWord_of_isWord (h : isWord cs = true) : cs ≠ [] ∧ ∀ c ∈ cs, inWord c = true := by
  simp only [isWord, Bool.and_eq_true, List.all_eq_true] at h
  obtain ⟨hstart, hparts⟩ := h
  refine ⟨?_, fun c hc => by simp [inWord, hparts c hc]⟩
  rintro rfl
  cases hstart

theorem inWord_of_digits (h : Lexeme.Digits cs) : cs ≠ [] ∧ ∀ c ∈ cs, inWord c = true :=
  ⟨h.1, fun c hc => by simp [inWord, Lexeme.isWordPart_of_isDigit (h.2 c hc)]⟩

/-- A token that is no string has a solid spelling. -/
theorem solid_spelling (h : t.IsLexical) (hstring : ∀ body, t ≠ .string body) :
    t.spelling.toList ≠ [] ∧ ∀ c ∈ t.spelling.toList, t.Solid c := by
  have hword : t.spelling.toList ≠ [] ∧ (∀ c ∈ t.spelling.toList, inWord c = true) →
      t.spelling.toList ≠ [] ∧ ∀ c ∈ t.spelling.toList, t.Solid c :=
    fun hword => ⟨hword.1, fun c hc => solid_of_inWord (hword.2 c hc)⟩
  cases t with
  | string body => exact absurd rfl (hstring body)
  | integer text => exact hword (inWord_of_digits h)
  | decimal text =>
    obtain ⟨whole, part, htext, hwhole, hpart⟩ := h
    refine hword ?_
    show text.toList ≠ [] ∧ ∀ c ∈ text.toList, inWord c = true
    rw [htext]
    refine ⟨by simp, List.forall_mem_append.mpr ⟨(inWord_of_digits hwhole).2, ?_⟩⟩
    exact List.forall_mem_cons.mpr ⟨rfl, (inWord_of_digits hpart).2⟩
  | identifier name => exact hword (inWord_of_isWord h.1)
  | keyword k => exact hword (inWord_of_isWord (Lexeme.isWord_spelling k))
  | dot => exact hword ⟨by decide, List.forall_mem_singleton.mpr rfl⟩
  | _ => exact solid_sign (by decide)

/-- A token begins and ends with a solid character. -/
theorem solid_ends (h : t.IsLexical) :
    (∃ a, t.spelling.toList.head? = some a ∧ t.Solid a) ∧
      ∃ z, t.spelling.toList.getLast? = some z ∧ t.Solid z := by
  by_cases hstring : ∃ body, t = .string body
  · obtain ⟨body, rfl⟩ := hstring
    have hspelling : (Token.string body).spelling.toList = '\'' :: body.toList ++ ['\''] := by
      simp [spelling]
    rw [hspelling]
    exact ⟨⟨_, rfl, solid_quote⟩, _, List.getLast?_concat, solid_quote⟩
  · obtain ⟨hne, hsolid⟩ := solid_spelling h fun body hbody => hstring ⟨body, hbody⟩
    refine ⟨⟨_, List.head?_eq_some_head hne, hsolid _ (List.head_mem hne)⟩, _,
      List.getLast?_eq_some_getLast hne, hsolid _ (List.getLast_mem hne)⟩

end Token

namespace Layout

/-! ### Places -/

theorem tokenize_chars (hlexical : ∀ t ∈ ts, t.IsLexical) (hpointed : Pointed ts) (pos : Nat) :
    (Lexer.mk pos (chars ts)).tokenize.1 = .ok (placed pos ts) := by
  have htokens := tokenize_chars_append hlexical hpointed Lexeme.stops_nil pos
  rw [List.append_nil, Lexer.tokenize_of_end (Lexer.next_nil _)] at htokens
  rw [htokens]
  exact congrArg Except.ok (List.append_nil _)

/-- At the place of a token stands its spelling. -/
theorem slice_placed (before : List Char) :
    ∀ p ∈ placed (utf8Length before) ts,
      p.span.slice (before ++ chars ts) = p.token.spelling.toList := by
  induction ts generalizing before with
  | nil =>
    intro p hp
    cases hp
  | cons t ts ih =>
    cases ts with
    | nil =>
      intro p hp
      cases List.mem_singleton.mp hp
      have hslice := slice_append before t.spelling.toList []
      rwa [List.append_nil] at hslice
    | cons u more =>
      have hmore := ih (before ++ (t.spelling.toList ++ space t u))
      rw [utf8Length_append, utf8Length_append, ← Nat.add_assoc, List.append_assoc] at hmore
      refine List.forall_mem_cons.mpr ⟨?_, hmore⟩
      rw [chars_cons_cons, List.append_assoc]
      exact slice_append _ _ _

/-! ### Characters -/

/-- A character of two texts behind one another is in the one or in the other. -/
theorem append_eq_append_cons (h : cs ++ rest = before ++ c :: behind) :
    (∃ left, cs = before ++ c :: left ∧ behind = left ++ rest) ∨
      ∃ more, before = cs ++ more ∧ rest = more ++ c :: behind := by
  rcases List.append_eq_append_iff.mp h with hright | ⟨left, hcs, hleft⟩
  · exact .inr hright
  · cases left with
    | nil => exact .inr ⟨[], by simpa using hcs.symm, hleft.symm⟩
    | cons d left =>
      cases hleft
      exact .inl ⟨left, hcs, rfl⟩

/-- A character that stands in `cs`, by its byte. -/
theorem inside_of_eq {left : List Char} (pos : Nat) (h : cs = before ++ c :: left) :
    c ∈ cs ∧ pos ≤ pos + utf8Length before ∧
      pos + utf8Length before < pos + utf8Length cs := by
  have hpos := utf8Length_pos (List.cons_ne_nil c left)
  rw [h, utf8Length_append]
  exact ⟨by simp, by omega, by omega⟩

theorem space_eq_append {left : List Char} (h : space t u = before ++ c :: left) :
    spaced t u = true ∧ before = [] ∧ c = ' ' ∧ left = [] := by
  unfold space at h
  split at h
  · next hspaced =>
    rcases List.cons_eq_append_iff.mp h with ⟨rfl, hcons⟩ | ⟨more, -, hnil⟩
    · cases hcons
      exact ⟨hspaced, rfl, rfl, rfl⟩
    · simp at hnil
  · simp at h

/-- Every character of a canonical text is in a token of it, or is a space between two tokens. -/
theorem chars_cases (pos : Nat) (h : chars ts = before ++ c :: behind) :
    (∃ p ∈ placed pos ts, p.token ∈ ts ∧ c ∈ p.token.spelling.toList ∧
      p.span.start ≤ pos + utf8Length before ∧ pos + utf8Length before < p.span.stop) ∨
    c = ' ' ∧ ∃ t ∈ ts, ∃ u ∈ ts, spaced t u = true ∧ t.spelling.toList <:+ before ∧
      u.spelling.toList <+: behind := by
  induction ts generalizing pos before with
  | nil => simp [chars] at h
  | cons t ts ih =>
    cases ts with
    | nil =>
      exact .inl ⟨_, List.mem_singleton_self _, List.mem_singleton_self t, inside_of_eq pos h⟩
    | cons u more =>
      rw [chars_cons_cons, List.append_assoc] at h
      rcases append_eq_append_cons h with ⟨left, ht, -⟩ | ⟨before, rfl, hbehind⟩
      · exact .inl ⟨_, List.mem_cons_self, List.mem_cons_self, inside_of_eq pos ht⟩
      rcases append_eq_append_cons hbehind with ⟨left, hspace, rfl⟩ | ⟨before, rfl, hmore⟩
      · obtain ⟨hspaced, rfl, rfl, rfl⟩ := space_eq_append hspace
        obtain ⟨behind, hu⟩ := chars_cons u more
        have hends : t.spelling.toList <:+ t.spelling.toList ++ [] :=
          ⟨[], (List.append_nil _).symm⟩
        exact .inr ⟨rfl, t, by simp, u, by simp, hspaced, hends, ⟨behind, hu.symm⟩⟩
      · rw [utf8Length_append, utf8Length_append, ← Nat.add_assoc, ← Nat.add_assoc]
        rcases ih _ hmore with
          ⟨p, hp, htoken, hplace⟩ | ⟨rfl, v, hv, w, hw, hspaced, hends, hbegins⟩
        · exact .inl ⟨p, List.mem_cons_of_mem _ hp, List.mem_cons_of_mem t htoken, hplace⟩
        · refine .inr ⟨rfl, v, List.mem_cons_of_mem t hv, w, List.mem_cons_of_mem t hw, hspaced,
            ?_, hbegins⟩
          rw [← List.append_assoc]
          exact hends.trans (List.suffix_append _ _)

theorem before_space {z : Char} (h : spaced t u = true) (hz : t.Solid z) : z ∉ [' ', '('] := by
  have hblank : z ≠ ' ' := by
    rintro rfl
    cases hz.blank
  have hopening : z ≠ '(' := by
    intro hz'
    rw [hz.opening hz'] at h
    cases h
  simp [hblank, hopening]

theorem behind_space {a : Char} (h : spaced t u = true) (ha : u.Solid a) :
    a ∉ [' ', ')', ','] := by
  have hblank : a ≠ ' ' := by
    rintro rfl
    cases ha.blank
  have hclosing : a ≠ ')' := by
    intro ha'
    rw [ha.closing ha'] at h
    cases t <;> cases h
  have hcomma : a ≠ ',' := by
    intro ha'
    rw [ha.comma ha'] at h
    cases t <;> cases h
  simp [hblank, hclosing, hcomma]

/-- A canonical text ends with the end of a token. -/
theorem chars_suffix (h : ts ≠ []) : ∃ t ∈ ts, t.spelling.toList <:+ chars ts := by
  induction ts with
  | nil => exact absurd rfl h
  | cons t ts ih =>
    cases ts with
    | nil => exact ⟨t, List.mem_singleton_self t, List.suffix_refl _⟩
    | cons u more =>
      obtain ⟨v, hv, hends⟩ := ih (List.cons_ne_nil u more)
      exact ⟨v, List.mem_cons_of_mem t hv, hends.trans (List.suffix_append _ _)⟩

theorem getLast?_of_suffix {z : Char} (h : cs <:+ rest) (hz : cs.getLast? = some z) :
    rest.getLast? = some z := by
  obtain ⟨more, rfl⟩ := h
  rw [List.getLast?_append, hz, Option.some_or]

theorem head?_of_prefix {a : Char} (h : cs <+: rest) (ha : cs.head? = some a) :
    rest.head? = some a := by
  obtain ⟨more, rfl⟩ := h
  rw [List.head?_append, ha, Option.some_or]

theorem spelling_keyword {k : Keyword} (htrue : k ≠ .TRUE) (hfalse : k ≠ .FALSE) :
    (Token.keyword k).spelling = k.spelling := by
  cases k <;> first | rfl | contradiction

/-- Outside the strings every character is solid, or is a space between two tokens. -/
theorem outside_cases (hlexical : ∀ t ∈ ts, t.IsLexical) (h : chars ts = before ++ c :: behind)
    (houtside : ¬InString (placed 0 ts) (utf8Length before)) :
    (∃ t : Token, t.Solid c) ∨
      c = ' ' ∧ ∃ t ∈ ts, ∃ u ∈ ts, spaced t u = true ∧ t.spelling.toList <:+ before ∧
        u.spelling.toList <+: behind := by
  rcases chars_cases 0 h with ⟨p, hp, htoken, hc, hstart, hstop⟩ | hspace
  · rw [Nat.zero_add] at hstart hstop
    have hstring : ∀ body, p.token ≠ .string body :=
      fun body hbody => houtside ⟨p, hp, ⟨body, hbody⟩, hstart, hstop⟩
    exact .inl ⟨p.token, (Token.solid_spelling (hlexical _ htoken) hstring).2 c hc⟩
  · exact .inr hspace

/-- A canonical text is tidy. -/
theorem tidy_chars (h : ∀ t ∈ ts, t.IsLexical) : Tidy (chars ts) (placed 0 ts) := by
  have hslice : ∀ p ∈ placed 0 ts, p.span.slice (chars ts) = p.token.spelling.toList :=
    slice_placed []
  constructor
  case blank =>
    intro before c behind htext houtside hblank
    rcases outside_cases h htext houtside with
      ⟨t, hsolid⟩ | ⟨rfl, t, ht, u, hu, hspaced, hends, hbegins⟩
    · rw [hsolid.blank] at hblank
      cases hblank
    obtain ⟨-, z, hz, hzsolid⟩ := Token.solid_ends (h t ht)
    obtain ⟨⟨a, ha, hasolid⟩, -⟩ := Token.solid_ends (h u hu)
    exact ⟨rfl, ⟨z, getLast?_of_suffix hends hz, before_space hspaced hzsolid⟩, a,
      head?_of_prefix hbegins ha, behind_space hspaced hasolid⟩
  case comment =>
    intro before opening behind htext houtside
    constructor
    · rintro rfl
      rcases outside_cases h htext houtside with ⟨t, hsolid⟩ | ⟨hc, -⟩
      · exact hsolid.dash rfl
      · cases hc
    · rintro rfl
      rcases outside_cases h htext houtside with ⟨t, hsolid⟩ | ⟨hc, -⟩
      · exact hsolid.slash rfl
      · cases hc
  case keyword =>
    intro p hp k hk htrue hfalse
    rw [← spelling_keyword htrue hfalse, ← hk]
    exact hslice p hp
  case truth =>
    intro p hp
    constructor
    · intro hk
      exact (hslice p hp).trans (by rw [hk]; rfl)
    · intro hk
      exact (hslice p hp).trans (by rw [hk]; rfl)

end Layout

/-! ### The end of a line -/

/-- If a text does not end with a blank, what `trimEnd` takes from its line is the line break. -/
theorem trimEnd_line {text : String} (h : ∀ z, text.toList.getLast? = some z → isBlank z = false) :
    Unicode.trimEnd (text ++ "\n") = text.toList := by
  have hline : (text ++ "\n").toList.reverse = '\n' :: text.toList.reverse := by simp
  have hends : ∀ z, text.toList.reverse.head? = some z → isBlank z = false := by
    rwa [List.head?_reverse]
  have hnone : ∀ d ∈ [], isBlank d = true := fun d hd => absurd hd List.not_mem_nil
  have hdrop := Lexeme.dropWhile_run hnone hends
  rw [List.nil_append] at hdrop
  rw [Unicode.trimEnd, hline, List.dropWhile_cons_of_pos Gap.isBlank_newline, hdrop,
    List.reverse_reverse]

end QueryCanon
