/-
A run of the lexer tiles the text.

The lexer may be called any number of times, also after an error.  Each answer has a place,
and the places follow one another through the text with nothing but gaps between them
(`Tile`).  What one call does keeps the lexer in the text (`next_tile`), and so a run of any
length does.
-/
import QueryCanon.Lexical.Lexer
import QueryCanon.Proofs.Lexical.Gap
import QueryCanon.Proofs.Lexical.Slice

namespace QueryCanon
namespace Lexer

open Gap (IsGap IsOpenGap)

/-- The lexer after `n` calls. -/
def after (l : Lexer) : Nat → Lexer
  | 0 => l
  | n + 1 => (l.after n).next.2

/-- What the next call answers. -/
def answer (l : Lexer) : Except LexError (Option Placed) := l.next.1

/-- The place of the next answer.  The end of the text has one too. -/
def place (l : Lexer) : Span :=
  match l.next with
  | (.ok (some p), _) => p.span
  | (.ok none, after) => .point after.pos
  | (.error e, _) => e.span

/-- The byte up to which the first `n` answers reach. -/
def reached (l : Lexer) : Nat → Nat
  | 0 => l.pos
  | n + 1 => (l.after n).place.stop

/-- What is true of the next answer, if the answers before it reach up to the byte `reached`
of the text. -/
structure Tile (text : List Char) (reached : Nat) (l : Lexer) : Prop where
  behind : reached ≤ l.place.start
  start : IsBoundary text l.place.start
  stop : IsBoundary text l.place.stop
  within : l.place.stop ≤ utf8Length text
  /-- The text may end inside a comment that goes on to the end of its line. -/
  gap : IsGap ((Span.mk reached l.place.start).slice text) ∨
    l.answer = .ok none ∧ IsOpenGap ((Span.mk reached l.place.start).slice text)
  token : ∀ p, l.answer = .ok (some p) →
    p.span = l.place ∧ p.token.SpelledBy (l.place.slice text)
  progress : l.answer ≠ .ok none → l.place.start < l.place.stop
  atEnd : l.answer = .ok none → l.place = .point (utf8Length text)

/-- The lexer stands in the text, before the part that is left. -/
def StandsIn (l : Lexer) (text : List Char) : Prop :=
  ∃ before, text = before ++ l.rest ∧ l.pos = utf8Length before

variable {l : Lexer} {text gap cs behind : List Char}

/-! ### One call -/

/-- At the end of the text there is nothing but a gap left. -/
theorem next_atEnd (h : (Gap.split l.rest).2 = []) :
    (IsGap l.rest ∨ IsOpenGap l.rest) ∧
      l.next = (.ok none, ⟨l.pos + utf8Length l.rest, []⟩) := by
  have hrest : (Gap.split l.rest).1 = l.rest := by
    have happend := Gap.append_split l.rest
    rwa [h, List.append_nil] at happend
  have hgap := Gap.split_isGap l.rest
  rw [hrest, h] at hgap
  refine ⟨hgap.imp_right And.left, ?_⟩
  unfold next
  dsimp only
  rw [hrest, h]

/-- Otherwise a stretch of the text behind the gap is taken. -/
theorem next_taken (h : (Gap.split l.rest).2 ≠ []) :
    ∃ gap cs behind answer, IsGap gap ∧ cs ≠ [] ∧ l.rest = gap ++ (cs ++ behind) ∧
      l.next = (answer, ⟨l.pos + utf8Length gap + utf8Length cs, behind⟩) ∧
      ((∃ t, answer = .ok (some ⟨t, l.pos + utf8Length gap,
          l.pos + utf8Length gap + utf8Length cs⟩) ∧ t.SpelledBy cs) ∨
        ∃ fault, answer = .error ⟨fault, l.pos + utf8Length gap,
          l.pos + utf8Length gap + utf8Length cs⟩) := by
  obtain ⟨c, rest, hrest⟩ := List.exists_cons_of_ne_nil h
  have hgap : IsGap (Gap.split l.rest).1 := by
    rcases Gap.split_isGap l.rest with hgap | ⟨-, hnil⟩
    · exact hgap
    · exact absurd hnil h
  have happend := Gap.append_split l.rest
  rw [hrest, ← Lexeme.append_read c rest] at happend
  refine ⟨_, _, _, l.next.1, hgap, Lexeme.text_read_ne_nil c rest, happend.symm, ?_⟩
  unfold next
  dsimp only
  rw [hrest]
  dsimp only
  cases hcontent : (Lexeme.read c rest).1.content with
  | ok t => exact ⟨rfl, .inl ⟨t, rfl, spelledBy_read hcontent⟩⟩
  | error fault => exact ⟨rfl, .inr ⟨fault, rfl⟩⟩

/-- An answer about the stretch `cs` of the text, with `gap` before it. -/
theorem Tile.of_parts {before : List Char} (gap cs behind : List Char)
    (htext : text = before ++ (gap ++ (cs ++ behind)))
    (hplace : l.place = ⟨utf8Length before + utf8Length gap,
      utf8Length before + utf8Length gap + utf8Length cs⟩)
    (hgap : IsGap gap ∨ l.answer = .ok none ∧ IsOpenGap gap)
    (htoken : ∀ p, l.answer = .ok (some p) → p.span = l.place ∧ p.token.SpelledBy cs)
    (hprogress : l.answer ≠ .ok none → cs ≠ [])
    (hend : l.answer = .ok none → cs = [] ∧ behind = []) : Tile text (utf8Length before) l := by
  have hgapSlice : (Span.mk (utf8Length before) l.place.start).slice text = gap := by
    rw [hplace, htext]
    exact slice_append before gap (cs ++ behind)
  have hslice : l.place.slice text = cs := by
    rw [hplace, htext, ← List.append_assoc, ← utf8Length_append]
    exact slice_append (before ++ gap) cs behind
  have hstop : IsBoundary text l.place.stop := by
    refine ⟨before ++ (gap ++ cs), behind, ?_, ?_⟩
    · rw [htext]
      simp only [List.append_assoc]
    · rw [hplace, utf8Length_append, utf8Length_append, Nat.add_assoc]
  refine ⟨?_, ⟨before ++ gap, cs ++ behind, ?_, ?_⟩, hstop, hstop.le, ?_, ?_, fun h => ?_,
    fun h => ?_⟩
  · rw [hplace]
    exact Nat.le_add_right _ _
  · rw [htext, List.append_assoc]
  · rw [hplace, utf8Length_append]
  · rw [hgapSlice]
    exact hgap
  · rw [hslice]
    exact htoken
  · have hpos := utf8Length_pos (hprogress h)
    rw [hplace]
    exact Nat.lt_add_of_pos_right hpos
  · obtain ⟨rfl, rfl⟩ := hend h
    rw [hplace, htext, utf8Length_append, List.append_nil, List.append_nil]
    rfl

/-- What one call does. -/
theorem next_tile (h : l.StandsIn text) :
    Tile text l.pos l ∧ l.next.2.StandsIn text ∧ l.next.2.pos = l.place.stop ∧
      (l.answer = .ok none → l.next.2.rest = []) := by
  obtain ⟨before, rfl, hpos⟩ := h
  by_cases hleft : (Gap.split l.rest).2 = []
  · obtain ⟨hgap, hnext⟩ := next_atEnd hleft
    have hanswer : l.answer = .ok none := by rw [answer, hnext]
    have hplace : l.place = .point (l.pos + utf8Length l.rest) := by rw [place, hnext]
    rw [hpos] at hplace ⊢
    refine ⟨.of_parts l.rest [] [] (by simp) hplace
      (hgap.imp_right fun h => ⟨hanswer, h⟩) ?_ ?_ fun _ => ⟨rfl, rfl⟩, ?_, ?_, ?_⟩
    · rw [hanswer]
      nofun
    · exact fun h => absurd hanswer h
    · rw [hnext]
      exact ⟨before ++ l.rest, by simp, by rw [utf8Length_append, hpos]⟩
    · rw [hnext, hplace, hpos]
      rfl
    · rw [hnext]
      exact fun _ => rfl
  · obtain ⟨gap, cs, behind, reply, hgap, hne, hrest, hnext, hreply⟩ := next_taken hleft
    have hanswer : l.answer = reply := by rw [answer, hnext]
    have hplace : l.place = ⟨l.pos + utf8Length gap, l.pos + utf8Length gap + utf8Length cs⟩ := by
      rw [place, hnext]
      rcases hreply with ⟨t, rfl, -⟩ | ⟨fault, rfl⟩ <;> rfl
    have hmore : l.answer ≠ .ok none := by
      rw [hanswer]
      rcases hreply with ⟨t, rfl, -⟩ | ⟨fault, rfl⟩ <;> nofun
    rw [hpos] at hplace hreply ⊢
    refine ⟨.of_parts gap cs behind (by rw [hrest]) hplace (.inl hgap) ?_ (fun _ => hne)
      (fun h => absurd h hmore), ?_, ?_, fun h => absurd h hmore⟩
    · intro p hp
      rw [hanswer] at hp
      rcases hreply with ⟨t, rfl, ht⟩ | ⟨fault, rfl⟩
      · cases hp
        exact ⟨hplace.symm, ht⟩
      · cases hp
    · rw [hnext, hrest]
      refine ⟨before ++ (gap ++ cs), by simp, ?_⟩
      simp only [utf8Length_append, hpos, Nat.add_assoc]
    · rw [hnext, hplace, hpos]

/-! ### A run -/

theorem after_add (l : Lexer) (m n : Nat) : l.after (m + n) = (l.after m).after n := by
  induction n with
  | zero => rfl
  | succ n ih =>
    show (l.after (m + n)).next.2 = _
    rw [ih]
    rfl

theorem after_succ (l : Lexer) (n : Nat) : l.after (n + 1) = l.next.2.after n := by
  rw [Nat.add_comm]
  exact after_add l 1 n

theorem standsIn_after (h : l.StandsIn text) (n : Nat) : (l.after n).StandsIn text := by
  induction n with
  | zero => exact h
  | succ n ih => exact (next_tile ih).2.1

theorem reached_eq (h : l.StandsIn text) (n : Nat) : l.reached n = (l.after n).pos := by
  cases n with
  | zero => rfl
  | succ n => exact (next_tile (standsIn_after h n)).2.2.1.symm

theorem Tile.start_le_stop {reached : Nat} (h : Tile text reached l) :
    l.place.start ≤ l.place.stop := by
  by_cases hend : l.answer = .ok none
  · rw [h.atEnd hend]
    exact Nat.le_refl _
  · exact Nat.le_of_lt (h.progress hend)

theorem tile_after (h : l.StandsIn text) (n : Nat) : Tile text (l.reached n) (l.after n) := by
  rw [reached_eq h]
  exact (next_tile (standsIn_after h n)).1

/-- The places of a run follow one another. -/
theorem stop_le_start (h : l.StandsIn text) {m n : Nat} (hmn : m < n) :
    (l.after m).place.stop ≤ (l.after n).place.start := by
  induction n with
  | zero => exact absurd hmn (Nat.not_lt_zero m)
  | succ n ih =>
    have hbehind : (l.after n).place.stop ≤ (l.after (n + 1)).place.start :=
      (tile_after h (n + 1)).behind
    rcases Nat.lt_succ_iff_lt_or_eq.mp hmn with hlt | rfl
    · exact Nat.le_trans (ih hlt) (Nat.le_trans (tile_after h n).start_le_stop hbehind)
    · exact hbehind

/-- Behind the end of the text there is nothing more. -/
theorem answer_of_rest_nil (h : l.rest = []) : l.answer = .ok none := by
  have hsplit : (Gap.split l.rest).2 = [] := by rw [h, Gap.split_nil]
  rw [answer, (next_atEnd hsplit).2]

theorem atEnd_after (h : l.StandsIn text) {m n : Nat} (hmn : m ≤ n)
    (hend : (l.after m).answer = .ok none) : (l.after n).answer = .ok none := by
  induction hmn with
  | refl => exact hend
  | @step n _ ih => exact answer_of_rest_nil ((next_tile (standsIn_after h n)).2.2.2 ih)

/-- `tokenize` gives the tokens that the calls of `next` give, up to the end of the text or
the first error, and leaves the lexer where they do. -/
theorem tokenize_answers (l : Lexer) :
    ∃ placed : List Placed,
      (∀ i, (h : i < placed.length) → (l.after i).answer = .ok (some placed[i])) ∧
      l.tokenize.2 = l.after (placed.length + 1) ∧
      ((l.after placed.length).answer = .ok none ∧ l.tokenize.1 = .ok placed ∨
        ∃ e, (l.after placed.length).answer = .error e ∧ l.tokenize.1 = .error e) := by
  -- On the calls that `tokenize` makes.
  fun_induction tokenize l with
  | case1 l e behind hnext =>
    have hanswer : l.answer = .error e := by rw [answer, hnext]
    have hafter : l.after 1 = behind := congrArg Prod.snd hnext
    exact ⟨[], nofun, hafter.symm, .inr ⟨e, hanswer, rfl⟩⟩
  | case2 l behind hnext =>
    have hanswer : l.answer = .ok none := by rw [answer, hnext]
    have hafter : l.after 1 = behind := congrArg Prod.snd hnext
    exact ⟨[], nofun, hafter.symm, .inl ⟨hanswer, rfl⟩⟩
  | case3 l p behind hnext more ih =>
    have hanswer : l.answer = .ok (some p) := by rw [answer, hnext]
    have hafter : ∀ n, l.after (n + 1) = behind.after n := by
      intro n
      rw [after_succ, hnext]
    obtain ⟨placed, hplaced, hbehind, hlast⟩ := ih
    refine ⟨p :: placed, fun i hi => ?_, ?_, ?_⟩
    · cases i with
      | zero => exact hanswer
      | succ i =>
        rw [hafter]
        exact hplaced i (Nat.lt_of_succ_lt_succ hi)
    · rw [hafter]
      exact hbehind
    · rw [List.length_cons, hafter]
      rcases hlast with ⟨hend, htokens⟩ | ⟨e, herror, htokens⟩
      · exact .inl ⟨hend, by rw [htokens]; rfl⟩
      · exact .inr ⟨e, herror, by rw [htokens]; rfl⟩

theorem standsIn_ofText (text : String) : (ofText text).StandsIn text.toList :=
  ⟨[], rfl, rfl⟩

/-- What stands in the text at the place of a token spells it. -/
theorem spelledBy_tokenize {text : String} {placed : List Placed}
    (h : (ofText text).tokenize.1 = .ok placed) :
    ∀ p ∈ placed, p.token.SpelledBy (p.span.slice text.toList) := by
  obtain ⟨found, hfound, -, ⟨-, htokens⟩ | ⟨e, -, htokens⟩⟩ := tokenize_answers (ofText text)
  · cases h.symm.trans htokens
    intro p hp
    obtain ⟨i, hi, rfl⟩ := List.mem_iff_getElem.mp hp
    have htile := tile_after (standsIn_ofText text) i
    obtain ⟨hspan, hspelled⟩ := htile.token _ (hfound i hi)
    rw [hspan]
    exact hspelled
  · cases h.symm.trans htokens

/-- A run of the lexer tiles its text: every answer has its place behind those before it,
with nothing but a gap between them, and the places end with the text.  From any point of
the run `tokenize` goes on as the run does. -/
theorem run_tiles (text : String) :
    (∀ n, Tile text.toList ((ofText text).reached n) ((ofText text).after n)) ∧
    (∀ m n, m < n → ((ofText text).after m).place.stop ≤ ((ofText text).after n).place.start) ∧
    (∀ m n, m ≤ n → ((ofText text).after m).answer = .ok none →
      ((ofText text).after n).answer = .ok none) ∧
    ∀ n, ∃ placed : List Placed,
      (∀ i, (h : i < placed.length) → ((ofText text).after (n + i)).answer = .ok (some placed[i])) ∧
      ((ofText text).after n).tokenize.2 = (ofText text).after (n + placed.length + 1) ∧
      (((ofText text).after (n + placed.length)).answer = .ok none ∧
          ((ofText text).after n).tokenize.1 = .ok placed ∨
        ∃ e, ((ofText text).after (n + placed.length)).answer = .error e ∧
          ((ofText text).after n).tokenize.1 = .error e) := by
  have hin := standsIn_ofText text
  refine ⟨tile_after hin, fun _ _ => stop_le_start hin, fun _ _ => atEnd_after hin, fun n => ?_⟩
  simp only [Nat.add_assoc, after_add _ n]
  exact tokenize_answers ((ofText text).after n)

deriving instance DecidableEq for Except

/-- A name of two bytes, a sign that is no token, and a string without its end. -/
def brokenText : String := "é/* * */! 'it"

/-- Two errors do not end the run. -/
theorem run_tiles_broken :
    ((ofText brokenText).after 0).answer = .ok (some ⟨.identifier "é", 0, 2⟩) ∧
    ((ofText brokenText).after 1).answer = .error ⟨.unexpectedChar '!', 9, 10⟩ ∧
    ((ofText brokenText).after 2).answer = .error ⟨.unterminatedString, 11, 14⟩ ∧
    ((ofText brokenText).after 3).answer = .ok none ∧
    ((ofText brokenText).after 0).place.stop ≤ ((ofText brokenText).after 2).place.start ∧
    Tile brokenText.toList ((ofText brokenText).reached 2) ((ofText brokenText).after 2) ∧
    ((ofText brokenText).after 7).answer = .ok none := by
  have hend : ((ofText brokenText).after 3).answer = .ok none := by decide +kernel
  obtain ⟨htile, hordered, hlast, -⟩ := run_tiles brokenText
  exact ⟨by decide +kernel, by decide +kernel, by decide +kernel, hend,
    hordered 0 2 (by decide), htile 2, hlast 3 7 (by decide) hend⟩

end Lexer
end QueryCanon
