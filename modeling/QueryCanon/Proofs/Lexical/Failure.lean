/-
Where a text stops being tokens.

The first error of a run stands behind all that was read before it, and nothing before it was
read with a look at the error: cut off in front of the error, the text has the same tokens and
comes to its end (`tokenize_cut`).  What stands at the place of the error is the one character
that begins no token, or a string or a comment that goes on to the end of the text.
-/
import QueryCanon.Proofs.Lexical.Context

namespace QueryCanon

/-- What stands in a text where the fault is, and what behind it. -/
def LexFault.Shows : LexFault → List Char → List Char → Prop
  | .unexpectedChar c, cs, _ => cs = [c]
  | .unterminatedString, cs, behind => ['\''] <+: cs ∧ behind = []
  | .unterminatedComment, cs, behind => ['/', '*'] <+: cs ∧ behind = []
  | .other _, _, _ => False

/-- Whether the error is in the text where its span says. -/
def LexError.Shows (text : List Char) (e : LexError) : Prop :=
  ∃ before cs behind, text = before ++ (cs ++ behind) ∧
    e.span = ⟨utf8Length before, utf8Length before + utf8Length cs⟩ ∧ e.fault.Shows cs behind

/-- The text up to the byte `n`. -/
def cutAt (n : Nat) (text : String) : String := String.ofList (takeBytes n text.toList)

namespace Lexeme

variable {c : Char} {cs : List Char} {fault : LexFault}

/-- What is taken as no token shows the fault. -/
theorem shows_read (h : (read c cs).1.content = .error fault) :
    fault.Shows (read c cs).1.text (read c cs).2 := by
  unfold read at h ⊢
  split at h
  case h_14 =>
    cases h
    exact ⟨⟨_, rfl⟩, rfl⟩
  case h_15 =>
    unfold readString at h ⊢
    split at h
    · cases h
    · cases h
      exact ⟨⟨_, rfl⟩, rfl⟩
  case h_16 =>
    split at h
    · unfold readNumber at h
      dsimp only at h
      split at h
      · split at h <;> cases h
      · cases h
    · next hdigit =>
      split at h
      · cases h
      · next hstart =>
        cases h
        rw [if_neg hdigit, if_neg hstart]
        rfl
  all_goals cases h

end Lexeme

namespace Lexer

open Gap (IsGap)
open Lexeme (StopsAs)

variable {l after : Lexer} {e : LexError} {gap : List Char}

/-- An error stands behind a gap. -/
theorem next_error (h : l.next = (.error e, after)) :
    ∃ gap cs, IsGap gap ∧ l.rest = gap ++ (cs ++ after.rest) ∧
      e.span = ⟨l.pos + utf8Length gap, l.pos + utf8Length gap + utf8Length cs⟩ ∧
      e.fault.Shows cs after.rest := by
  have hgap := Gap.split_isGap l.rest
  unfold next at h
  dsimp only at h
  split at h
  · cases h
  · next c cs hcs =>
    split at h
    · cases h
    · next fault hfault =>
      cases h
      refine ⟨_, _, hgap.resolve_right fun hopen => ?_, ?_, rfl, Lexeme.shows_read hfault⟩
      · rw [hcs] at hopen
        cases hopen.2
      · rw [Lexeme.append_read, ← hcs, Gap.append_split]

theorem tokenize_gap (h : IsGap gap) (pos : Nat) : (Lexer.mk pos gap).tokenize.1 = .ok [] := by
  have hnext := next_gap h pos []
  rw [List.append_nil, next_nil] at hnext
  exact tokenize_of_end hnext

/-- A run that comes to an error, on the text in front of the error. -/
theorem tokenize_cut (h : l.tokenize.1 = .error e) :
    ∃ placed before cs behind, l.rest = before ++ (cs ++ behind) ∧
      e.span = ⟨l.pos + utf8Length before, l.pos + utf8Length before + utf8Length cs⟩ ∧
      e.fault.Shows cs behind ∧
      (Lexer.mk l.pos before).tokenize.1 = .ok placed ∧
      (∀ i, (h : i < placed.length) → (l.after i).answer = .ok (some placed[i])) ∧
      (l.after placed.length).answer = .error e := by
  induction l using tokenize.induct with
  | case1 l found after hnext =>
    cases h.symm.trans (tokenize_of_error hnext)
    obtain ⟨gap, cs, hgap, hrest, hspan, hshows⟩ := next_error hnext
    exact ⟨[], gap, cs, after.rest, hrest, hspan, hshows, tokenize_gap hgap l.pos,
      fun i hi => absurd hi (Nat.not_lt_zero i), congrArg Prod.fst hnext⟩
  | case2 l after hnext => cases h.symm.trans (tokenize_of_end hnext)
  | case3 l p after hnext ih =>
    have hmore : after.tokenize.1 = .error e := by
      rw [tokenize_of_token hnext] at h
      cases hafter : after.tokenize.1 with
      | error found =>
        rw [hafter] at h
        cases h
        rfl
      | ok placed =>
        rw [hafter] at h
        cases h
    obtain ⟨placed, before, cs, behind, hrest, hspan, hshows, hplaced, hanswers, hlast⟩ := ih hmore
    -- What is cut off stands behind the token, so the token is read as before.
    have hstops : StopsAs after.rest before := Lexeme.stopsAs_prefix ⟨cs ++ behind, hrest.symm⟩
    obtain ⟨taken, htaken, hpos, hcut⟩ := next_instead hnext hstops
    have hafter : ∀ n, l.after (n + 1) = after.after n := by
      intro n
      rw [after_succ, hnext]
    refine ⟨p :: placed, taken ++ before, cs, behind, ?_, ?_, hshows, ?_, fun i hi => ?_, ?_⟩
    · rw [htaken, hrest, List.append_assoc]
    · rw [hspan, hpos, utf8Length_append, Nat.add_assoc l.pos]
    · rw [tokenize_of_token hcut, hplaced]
      rfl
    · cases i with
      | zero => exact congrArg Prod.fst hnext
      | succ i =>
        rw [hafter]
        exact hanswers i (Nat.lt_of_succ_lt_succ hi)
    · rw [List.length_cons, hafter]
      exact hlast

/-- Where the tokens of a text end, the run comes to its end. -/
theorem end_of_tokenize {text : String} {placed : List Placed}
    (h : (ofText text).tokenize.1 = .ok placed) :
    ((ofText text).after placed.length).answer = .ok none ∧
      ((ofText text).after placed.length).place = .point (utf8Length text.toList) := by
  obtain ⟨found, -, -, ⟨hend, htokens⟩ | ⟨e, -, htokens⟩⟩ := tokenize_answers (ofText text)
  · cases h.symm.trans htokens
    exact ⟨hend, (tile_after (standsIn_ofText text) placed.length).atEnd hend⟩
  · cases h.symm.trans htokens

/-- The error that a text has is in the text where its span says, as an error of its kind.
Cut off in front of the error, the text has the tokens that were read before the error, and its
end comes behind them. -/
theorem failure_located (text : String) (e : LexError) (h : (ofText text).tokenize.1 = .error e) :
    e.Shows text.toList ∧
    ∃ placed : List Placed,
      (∀ i, (h : i < placed.length) → ((ofText text).after i).answer = .ok (some placed[i])) ∧
      ((ofText text).after placed.length).answer = .error e ∧
      (ofText (cutAt e.span.start text)).tokenize.1 = .ok placed ∧
      ((ofText (cutAt e.span.start text)).after placed.length).answer = .ok none ∧
      ((ofText (cutAt e.span.start text)).after placed.length).place = .point e.span.start := by
  obtain ⟨placed, before, cs, behind, hrest, hspan, hshows, hplaced, hanswers, hlast⟩ :=
    tokenize_cut h
  have htext : text.toList = before ++ (cs ++ behind) := hrest
  have hspan : e.span = ⟨utf8Length before, utf8Length before + utf8Length cs⟩ := by
    simpa [ofText] using hspan
  have hcut : cutAt e.span.start text = String.ofList before := by
    rw [cutAt, hspan, htext, takeBytes_append]
  have hplaced : (ofText (String.ofList before)).tokenize.1 = .ok placed := by
    rwa [ofText, String.toList_ofList]
  have hend := end_of_tokenize hplaced
  rw [String.toList_ofList] at hend
  rw [hcut, hspan]
  exact ⟨⟨before, cs, behind, htext, hspan, hshows⟩, placed, hanswers, hlast, hplaced, hend⟩

/-- A number in front of a point that belongs to no number, and a comment without its end, which
holds another comment and a string. -/
def openComment : String := "é>/**/1./*'it''s'--"

theorem failure_located_openComment :
    (ofText openComment).tokenize.1 = .error ⟨.unterminatedComment, 9, 20⟩ ∧
    (ofText (cutAt 9 openComment)).tokenize.1 =
      .ok [⟨.identifier "é", 0, 2⟩, ⟨.greater, 2, 3⟩, ⟨.integer "1", 7, 8⟩, ⟨.dot, 8, 9⟩] ∧
    ((ofText (cutAt 9 openComment)).after 4).place = .point 9 := by
  have hfails : (ofText openComment).tokenize.1 = .error ⟨.unterminatedComment, 9, 20⟩ := by
    decide +kernel
  have hcut : (ofText (cutAt 9 openComment)).tokenize.1 =
      .ok [⟨.identifier "é", 0, 2⟩, ⟨.greater, 2, 3⟩, ⟨.integer "1", 7, 8⟩, ⟨.dot, 8, 9⟩] := by
    decide +kernel
  obtain ⟨-, placed, -, -, hplaced, -, hplace⟩ := failure_located openComment _ hfails
  cases hplaced.symm.trans hcut
  exact ⟨hfails, hcut, hplace⟩

end Lexer
end QueryCanon
