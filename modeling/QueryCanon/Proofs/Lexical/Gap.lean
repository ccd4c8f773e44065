/-
What may stand between two lexemes.

`IsGap` describes blanks and whole comments by themselves, without the reader that skips
them.  The reader skips a gap whatever stands behind it (`split_append`), and nothing else:
what it skips is a gap, unless the text ends inside a comment to the end of its line
(`split_isGap`).
-/
import QueryCanon.Proofs.Lexical.Spelling

namespace QueryCanon
namespace Gap

open Unicode (isBlank)

/-- Blanks and comments, each comment with its end: a newline, or the first `*/` in it. -/
inductive IsGap : List Char → Prop
  | nil : IsGap []
  | blank {c cs} : isBlank c = true → IsGap cs → IsGap (c :: cs)
  | line {body cs} : '\n' ∉ body → IsGap cs → IsGap ('-' :: '-' :: (body ++ '\n' :: cs))
  | block {body cs} : ¬['*', '/'] <:+: body → IsGap cs →
    IsGap ('/' :: '*' :: (body ++ '*' :: '/' :: cs))

/-- A gap with one more comment behind it, which goes on to the end of its line. -/
def IsOpenGap (cs : List Char) : Prop :=
  ∃ gap body, cs = gap ++ '-' :: '-' :: body ∧ IsGap gap ∧ '\n' ∉ body

variable {c : Char} {cs text rest body left gap : List Char}

theorem isBlank_newline : isBlank '\n' = true := by decide

/-! ### Comments -/

/-- The first `*/` closes the comment. -/
theorem closeBlock_append (h : ¬['*', '/'] <:+: body) (rest : List Char) :
    closeBlock (body ++ '*' :: '/' :: rest) = some (body ++ ['*', '/'], rest) := by
  induction body with
  | nil => rfl
  | cons c body ih =>
    rw [List.infix_cons_iff, not_or] at h
    obtain ⟨hfirst, hmore⟩ := h
    have hopen : ∀ left, c = '*' → body ++ '*' :: '/' :: rest = '/' :: left → False := by
      rintro left rfl hleft
      cases body with
      | nil => cases hleft
      | cons d body =>
        cases hleft
        exact hfirst ⟨body, rfl⟩
    rw [List.cons_append, closeBlock.eq_3 _ _ hopen, ih hmore]
    rfl

theorem of_closeBlock (h : closeBlock text = some (cs, left)) :
    ∃ body, cs = body ++ ['*', '/'] ∧ ¬['*', '/'] <:+: body := by
  fun_induction closeBlock text generalizing cs left with
  | case1 => cases h
  | case2 rest =>
    cases h
    exact ⟨[], rfl, by simp⟩
  | case3 c rest hopen ih =>
    obtain ⟨⟨inner, behind⟩, hcut, he⟩ := Option.map_eq_some_iff.mp h
    cases he
    obtain ⟨body, rfl, hbody⟩ := ih hcut
    refine ⟨c :: body, rfl, ?_⟩
    rw [List.infix_cons_iff, not_or]
    refine ⟨fun hfirst => ?_, hbody⟩
    obtain ⟨more, hmore⟩ := hfirst
    have hrest := append_of_closeBlock hcut
    cases hmore
    exact hopen _ rfl hrest.symm

/-! ### What is skipped -/

theorem split_dashes (rest : List Char) :
    split ('-' :: '-' :: rest) =
      ('-' :: '-' :: rest.takeWhile (· != '\n') ++ (split (rest.dropWhile (· != '\n'))).1,
        (split (rest.dropWhile (· != '\n'))).2) := by
  rw [split.eq_def]
  rfl

theorem split_slash (h : closeBlock text = some (cs, left)) :
    split ('/' :: '*' :: text) = ('/' :: '*' :: cs ++ (split left).1, (split left).2) := by
  rw [split.eq_def]
  split
  · next htext => cases htext
  · next htext => cases htext
  · next htext =>
    cases htext
    split
    · next hcut =>
      cases h.symm.trans hcut
      rfl
    · next hcut => cases h.symm.trans hcut
  · next hother htext =>
    cases htext
    exact (hother text rfl rfl).elim

theorem split_line (h : '\n' ∉ body) (rest : List Char) :
    split ('-' :: '-' :: (body ++ '\n' :: rest)) =
      ('-' :: '-' :: (body ++ '\n' :: (split rest).1), (split rest).2) := by
  have hbody : ∀ d ∈ body, (d != '\n') = true := by
    intro d hd
    exact bne_iff_ne.mpr fun hne => h (hne ▸ hd)
  have hend : ∀ d, ('\n' :: rest).head? = some d → (d != '\n') = false := by
    intro d hd
    cases hd
    rfl
  rw [split_dashes, Lexeme.takeWhile_run hbody hend, Lexeme.dropWhile_run hbody hend,
    split_of_isBlank isBlank_newline]
  simp

theorem split_block (h : ¬['*', '/'] <:+: body) (rest : List Char) :
    split ('/' :: '*' :: (body ++ '*' :: '/' :: rest)) =
      ('/' :: '*' :: (body ++ '*' :: '/' :: (split rest).1), (split rest).2) := by
  rw [split_slash (closeBlock_append h rest)]
  simp

/-- A gap is skipped, whatever stands behind it. -/
theorem split_append (h : IsGap gap) (rest : List Char) :
    split (gap ++ rest) = (gap ++ (split rest).1, (split rest).2) := by
  induction h with
  | nil => rfl
  | blank hblank _ ih => rw [List.cons_append, split_of_isBlank hblank, ih, List.cons_append]
  | line hbody _ ih =>
    have hline := split_line hbody
    simp only [List.cons_append, List.append_assoc, hline, ih]
  | block hbody _ ih =>
    have hblock := split_block hbody
    simp only [List.cons_append, List.append_assoc, hblock, ih]

theorem IsOpenGap.blank (hblank : isBlank c = true) (h : IsOpenGap cs) : IsOpenGap (c :: cs) := by
  obtain ⟨gap, body, rfl, hgap, hbody⟩ := h
  exact ⟨c :: gap, body, rfl, hgap.blank hblank, hbody⟩

theorem IsOpenGap.block (hbody : ¬['*', '/'] <:+: body) (h : IsOpenGap cs) :
    IsOpenGap ('/' :: '*' :: (body ++ '*' :: '/' :: cs)) := by
  obtain ⟨gap, inner, rfl, hgap, hinner⟩ := h
  exact ⟨_, inner, by simp, hgap.block hbody, hinner⟩

theorem IsOpenGap.line (hbody : '\n' ∉ body) (h : IsOpenGap cs) :
    IsOpenGap ('-' :: '-' :: (body ++ '\n' :: cs)) := by
  obtain ⟨gap, inner, rfl, hgap, hinner⟩ := h
  exact ⟨_, inner, by simp, hgap.line hbody, hinner⟩

theorem IsGap.behind_newline (h : IsGap ('\n' :: cs)) : IsGap cs := by
  cases h with
  | blank _ h => exact h

theorem IsOpenGap.behind_newline (h : IsOpenGap ('\n' :: cs)) : IsOpenGap cs := by
  obtain ⟨gap, body, hcs, hgap, hbody⟩ := h
  cases gap with
  | nil => cases hcs
  | cons c gap =>
    cases hcs
    exact ⟨gap, body, rfl, hgap.behind_newline, hbody⟩

/-- The line of a comment ends with the text or with a newline. -/
theorem line_end (text : List Char) :
    text.dropWhile (· != '\n') = [] ∨ ∃ rest, text.dropWhile (· != '\n') = '\n' :: rest := by
  cases h : text.dropWhile (· != '\n') with
  | nil => exact .inl rfl
  | cons c rest =>
    have hstop := List.head?_dropWhile_not (· != '\n') text
    rw [h] at hstop
    have hc : c = '\n' := by simpa using hstop
    exact .inr ⟨rest, by rw [hc]⟩

theorem newline_not_mem_takeWhile (text : List Char) : '\n' ∉ text.takeWhile (· != '\n') := by
  intro h
  have hkept := List.all_eq_true.mp List.all_takeWhile _ h
  revert hkept
  decide

/-- What is skipped is a gap; only the end of the text may leave a comment open. -/
theorem split_isGap (text : List Char) :
    IsGap (split text).1 ∨ IsOpenGap (split text).1 ∧ (split text).2 = [] := by
  fun_induction split text with
  | case1 => exact .inl .nil
  | case2 rest more ih =>
    have hbody := newline_not_mem_takeWhile rest
    rcases line_end rest with hend | ⟨left, hend⟩
    · have hmore : more = ([], []) := by
        show split _ = _
        rw [hend, split_nil]
      rw [hmore]
      exact .inr ⟨⟨[], _, by simp, .nil, hbody⟩, rfl⟩
    · have hmore : more = ('\n' :: (split left).1, (split left).2) := by
        show split _ = _
        rw [hend, split_of_isBlank isBlank_newline]
      have hih : IsGap more.1 ∨ IsOpenGap more.1 ∧ more.2 = [] := ih
      rw [hmore] at hih ⊢
      rcases hih with hgap | ⟨hgap, hnil⟩
      · exact .inl (.line hbody hgap.behind_newline)
      · exact .inr ⟨.line hbody hgap.behind_newline, hnil⟩
  | case3 rest inner left hcut more ih =>
    obtain ⟨body, rfl, hbody⟩ := of_closeBlock hcut
    have hinner : '/' :: '*' :: (body ++ ['*', '/']) ++ more.1 =
        '/' :: '*' :: (body ++ '*' :: '/' :: more.1) := by simp
    rw [hinner]
    rcases ih with hgap | ⟨hgap, hnil⟩
    · exact .inl (.block hbody hgap)
    · exact .inr ⟨.block hbody hgap, hnil⟩
  | case4 => exact .inl .nil
  | case5 c rest _ _ hblank more ih =>
    rcases ih with hgap | ⟨hgap, hnil⟩
    · exact .inl (.blank hblank hgap)
    · exact .inr ⟨.blank hblank hgap, hnil⟩
  | case6 => exact .inl .nil

end Gap
end QueryCanon
