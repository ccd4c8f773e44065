/-
Canonical tokens, laid out as a text and read again.

What a reader of whole texts took from lexical tokens it takes again from the canonical
text, with the wrapped tree, if the limit leaves room for the levels of that tree; under a
smaller limit it meets the limit.
-/
import QueryCanon.Grammar.Script
import QueryCanon.Proofs.Grammar.Canonical
import QueryCanon.Proofs.Grammar.Conservation
import QueryCanon.Proofs.Grammar.Limit
import QueryCanon.Proofs.Grammar.Soundness
import QueryCanon.Proofs.Lexical.Layout

namespace QueryCanon
namespace Grammar

open Reader

variable {choice : Choice} {n m : Nat} {s : Symbol} {ts us rest : List Token} {t : Token}

/-! ### Points -/

theorem piecewise_pointed : Piecewise Pointed where
  nil := .nil
  append h h' := h.append h'
  enclose h := .cons nofun (h.append (.cons nofun .nil))
  token ht _ := .cons (by rintro rfl; cases ht) .nil
  point _ := .point .nil

/-- In a phrase every point has a name behind it. -/
theorem Derives.pointed {v : s.Value} (h : Derives choice n s ts v) : Pointed ts :=
  piecewise_pointed.phrase (.cons nofun .nil) h

/-! ### Lexical tokens -/

theorem isLexical_of_not_hasText (h : hasText t = false) : t.IsLexical := by
  cases t with
  | integer => cases h
  | decimal => cases h
  | string => cases h
  | identifier => cases h
  | _ => trivial

/-- Tokens that say the same are lexical together. -/
theorem isLexical_of_content_eq (h : content us = content ts) (hts : ∀ t ∈ ts, t.IsLexical) :
    ∀ t ∈ us, t.IsLexical := by
  intro t ht
  cases htext : hasText t with
  | false => exact isLexical_of_not_hasText htext
  | true =>
    have hmem : t ∈ us.filter hasText := List.mem_filter.mpr ⟨ht, htext⟩
    rw [← filter_content, h, filter_content] at hmem
    exact hts t (List.mem_filter.mp hmem).1

theorem point_not_mem_digits {cs : List Char} (h : Lexeme.Digits cs) : '.' ∉ cs := by
  intro hmem
  have hdigit := h.2 '.' hmem
  revert hdigit
  decide

/-- A literal of a lexical token is written as that token. -/
theorem faithful_of_isLexical (h : ∀ t ∈ ts, t.IsLexical) : Faithful ts := by
  intro t ht l hl
  have hlexical := h t ht
  cases hl with
  | integer text =>
    have hpoint : text.toList.contains '.' = false := by
      simpa using point_not_mem_digits hlexical
    rw [Literal.token, hpoint]
    rfl
  | decimal text =>
    obtain ⟨whole, part, htext, -, -⟩ := hlexical
    have hpoint : text.toList.contains '.' = true := by
      rw [htext]
      simp
    rw [Literal.token, hpoint]
    rfl
  | string body => rfl
  | true => rfl
  | false => rfl

/-! ### Readers of whole texts -/

/-- The readers, one for each limit, take the phrases of the kind `s` with nothing behind
them but perhaps a semicolon. -/
structure ReadsWhole (s : Symbol) (r : Nat → Reader s.Value) : Prop where
  sound : ∀ {n ts v rest}, (r n).read ts = .done v rest →
    ∃ us, (ts = us ∨ ts = us ++ [.semicolon]) ∧ Derives .longest n s us v
  complete : ∀ {n ts v}, Derives .longest n s ts v → (r n).read ts = .done v []
  capped : ∀ {n m}, n ≤ m → Capped n (r n) (r m)
  whole : s.isWhole = true
  uncrossed : s.crosses = false

theorem wholeStatement_reads : ReadsWhole .query wholeStatement where
  sound {n ts q rest} h := by
    obtain ⟨q', mid, hread, hbehind⟩ := bind_done.mp h
    obtain ⟨used, rfl, hd⟩ := statement_sound n hread
    rcases accept_bind_done.mp hbehind with ⟨left, rfl, hleft⟩ | ⟨-, hleft⟩
    all_goals
      obtain ⟨_, _, hend, hpure⟩ := bind_done.mp hleft
      obtain ⟨rfl, rfl⟩ := endOfInput_done.mp hend
      cases hpure
    · exact ⟨used, .inr rfl, hd⟩
    · exact ⟨used, .inl (List.append_nil used), hd⟩
  complete {n ts q} h := by
    have hread := h.completes [] (clear_nil _)
    rw [List.append_nil] at hread
    refine bind_done.mpr ⟨q, [], hread, accept_bind_done.mpr (.inr ⟨nofun, ?_⟩)⟩
    exact bind_done.mpr ⟨(), [], endOfInput_done.mpr ⟨rfl, rfl⟩, rfl⟩
  capped := wholeStatement_capped
  whole := rfl
  uncrossed := rfl

theorem wholeExpression_reads : ReadsWhole .expression wholeExpression where
  sound {n ts e rest} h := by
    obtain ⟨e', mid, hread, hleft⟩ := bind_done.mp h
    obtain ⟨used, rfl, hd, -⟩ := expression_sound n hread
    obtain ⟨_, _, hend, hpure⟩ := bind_done.mp hleft
    obtain ⟨rfl, rfl⟩ := endOfInput_done.mp hend
    cases hpure
    exact ⟨used, .inl (List.append_nil used), hd.expression⟩
  complete {n ts e} h := by
    have hread := h.completes [] (clear_nil _)
    rw [List.append_nil] at hread
    exact bind_done.mpr ⟨e, [], hread,
      bind_done.mpr ⟨(), [], endOfInput_done.mpr ⟨rfl, rfl⟩, rfl⟩⟩
  capped := wholeExpression_capped
  whole := rfl
  uncrossed := rfl

variable {r : Nat → Reader s.Value} {v : s.Value}

/-- What was read from lexical tokens says in canonical tokens the same as there. -/
theorem ReadsWhole.alike (h : ReadsWhole s r) (hts : ∀ t ∈ ts, t.IsLexical)
    (hread : (r n).read ts = .done v rest) : Alike ts (s.tokens v) := by
  obtain ⟨us, hus, hd⟩ := h.sound hread
  have hlexical : ∀ t ∈ us, t.IsLexical := by
    rcases hus with rfl | rfl
    · exact hts
    · exact fun t ht => hts t (List.mem_append_left _ ht)
  have halike := hd.alike h.uncrossed (faithful_of_isLexical hlexical)
  rcases hus with rfl | rfl
  · exact halike
  · have hsemicolon : Alike [.semicolon] [] := by
      refine ⟨⟨[], fun _ => rfl, fun _ => rfl⟩, rfl, Nat.zero_le _⟩
    simpa using halike.append hsemicolon

/-- The canonical tokens of what was read from lexical tokens are lexical. -/
theorem ReadsWhole.lexical (h : ReadsWhole s r) (hts : ∀ t ∈ ts, t.IsLexical)
    (hread : (r n).read ts = .done v rest) : ∀ t ∈ s.tokens v, t.IsLexical := by
  obtain ⟨w, hw, hw'⟩ := (h.alike hts hread).content
  exact isLexical_of_content_eq (hw'.content_eq.trans hw.content_eq.symm) hts

/-- The canonical text makes the canonical tokens. -/
theorem ReadsWhole.ofText (h : ReadsWhole s r) (hts : ∀ t ∈ ts, t.IsLexical)
    (hread : (r n).read ts = .done v rest) :
    ∃ p, Parser.ofText (Layout.text (s.tokens v)) = .ok p ∧
      p.tokens.map (·.token) = s.tokens v := by
  obtain ⟨us, -, hd⟩ := h.sound hread
  have hpointed := (hd.canonical.spelled h.whole _ (Nat.le_refl _)).pointed
  exact Parser.ofText_layout (h.lexical hts hread) hpointed

/-- From the canonical tokens the wrapped tree is read, if the limit has room for it. -/
theorem ReadsWhole.reread (h : ReadsWhole s r) (hread : (r n).read ts = .done v rest)
    (hm : s.levels (s.wrapped v) ≤ m) : (r m).read (s.tokens v) = .done (s.wrapped v) [] := by
  obtain ⟨us, -, hd⟩ := h.sound hread
  exact h.complete (hd.canonical.spelled h.whole m hm)

/-- If it has none, the limit is met. -/
theorem ReadsWhole.reread_tooDeep (h : ReadsWhole s r) (hread : (r n).read ts = .done v rest)
    (hm : m < s.levels (s.wrapped v)) :
    ∃ left, (r m).read (s.tokens v) = .failed .tooDeep left := by
  have hagain := h.reread hread (Nat.le_refl _)
  rcases (h.capped (Nat.le_of_lt hm)).read_eq_or (s.tokens v) with hsame | hdeep
  · -- Had it been read, the wrapped tree would fit under the limit.
    rw [hagain] at hsame
    obtain ⟨us, -, hd⟩ := h.sound hsame
    exact absurd hd.levels_le (Nat.not_le.mpr hm)
  · exact hdeep

end Grammar
end QueryCanon
