/-
What an error says of its text is so.

An error of the grammar is about one token, or about the end of the text: that is what was
found, and the place of the error ends with it.  The place begins with it too, but where a
parenthesis was to be closed; there it begins with the one to be closed, which is the innermost
that is open.  And no error, whatever it is about, has a place outside the text or inside a
character.
-/
import QueryCanon.Canonical
import QueryCanon.Proofs.Grammar.Pairing
import QueryCanon.Proofs.Lexical.Context
import QueryCanon.Proofs.Parser.Prefix

namespace QueryCanon

open Grammar

variable {α : Type} {limit k : Nat} {text : String} {p : Parser} {r : Reader α}
  {used rest : List Token} {fault : Fault} {s s' : Span}

/-! ### The token of an error -/

theorem Grammar.Fault.Innermost.among (h : fault.Innermost used rest) : fault.Among used rest := by
  cases fault with
  | unclosed opened =>
    obtain ⟨outer, inner, hused, -, hopened⟩ := h
    exact ⟨outer, inner, hused, hopened⟩
  | expected wanted => trivial
  | tooDeep => trivial

/-- What `e` says of the tokens of `p` is so: `wanted` was to stand at the token behind the
first `k`. -/
structure Parser.Bears (p : Parser) (e : SyntaxError) (wanted : Wanted) (k : Nat) : Prop where
  within : k ≤ p.tokens.length
  problem : e.problem = .unexpected wanted (p.tokenAt? k)
  stop : e.span.stop = (p.spanAt k).stop
  start : (isClosing wanted = false ∧ e.span.start = (p.spanAt k).start) ∨
    (wanted = .closing e.span.start ∧
      wanted.describe = "')' to close '(' at position " ++ toString e.span.start ∧
      ∃ i < k, p.tokenAt? i = some .leftParen ∧ e.span.start = (p.spanAt i).start ∧
        Balanced ((p.kinds.take k).drop (i + 1)))
  atEnd : e.problem.isEnd = true ↔ k = p.tokens.length

namespace Parser

theorem isEnd_unexpected_tokenAt? (wanted : Wanted) (hk : k ≤ p.tokens.length) :
    (Problem.unexpected wanted (p.tokenAt? k)).isEnd = true ↔ k = p.tokens.length := by
  have hnone : p.tokenAt? k = none ↔ p.tokens.length ≤ k := by
    rw [tokenAt?, List.getElem?_eq_none_iff, length_kinds]
  simp only [Problem.isEnd, Problem.found?, beq_iff_eq, Option.some.injEq, hnone]
  omega

/-- An error about a fault that tells the truth about the tokens does so about the text. -/
theorem bears_locate (hp : p.Ordered) (hkinds : p.kinds = used ++ rest) (hdeep : fault ≠ .tooDeep)
    (hinnermost : fault.Innermost used rest) :
    ∃ wanted, p.Bears (p.locate limit (p.skipTo rest.length) fault) wanted used.length := by
  have hreports : p.Reports (p.locate limit (p.skipTo rest.length) fault) used.length :=
    reports_locate hkinds hdeep hinnermost.among
  have hwithin := hreports.within
  have hstop := hreports.stop_eq hp
  cases fault with
  | tooDeep => exact absurd rfl hdeep
  | expected wanted =>
    rw [locate, next?_behind_used hkinds, span_behind_used hkinds] at hstop ⊢
    exact ⟨wanted, hwithin, rfl, hstop, .inl ⟨hinnermost, rfl⟩,
      isEnd_unexpected_tokenAt? wanted hwithin⟩
  | unclosed opened =>
    obtain ⟨outer, inner, rfl, hinner, rfl⟩ := hinnermost
    have hlt : outer.length < (outer ++ .leftParen :: inner).length := by simp
    have hforward := hp.forward outer.length (Nat.le_trans (Nat.le_of_lt hlt) hwithin)
    have hstart : ((p.spanAt outer.length).merge
        (p.spanAt (outer ++ .leftParen :: inner).length)).start = (p.spanAt outer.length).start :=
      Nat.min_eq_left (Nat.le_trans hforward (hp.behind hlt hwithin))
    rw [locate_unclosed hkinds] at hstop ⊢
    refine ⟨_, hwithin, rfl, hstop, .inr ⟨congrArg _ hstart.symm, ?_, outer.length, hlt, ?_, hstart,
      ?_⟩, isEnd_unexpected_tokenAt? _ hwithin⟩
    · rw [hstart]
      rfl
    · rw [tokenAt?, hkinds]
      simp
    · rw [hkinds, List.take_left, List.append_cons, List.drop_left' (by simp)]
      exact hinner

end Parser

/-! ### Places in the text -/

/-- The place lies in the text, and begins and ends between characters. -/
structure Span.Within (s : Span) (text : String) : Prop where
  forward : s.start ≤ s.stop
  within : s.stop ≤ text.utf8ByteSize
  start : IsBoundary text.toList s.start
  stop : IsBoundary text.toList s.stop

theorem Lexer.place_within {l : Lexer} {reached : Nat} (h : Tile text.toList reached l) :
    l.place.Within text where
  forward := h.start_le_stop
  within := by
    rw [utf8ByteSize_eq]
    exact h.within
  start := h.start
  stop := h.stop

theorem Span.Within.merge (h : s.Within text) (h' : s'.Within text) : (s.merge s').Within text where
  forward := Nat.le_trans (Nat.min_le_left _ _) (Nat.le_trans h.forward (Nat.le_max_left _ _))
  within := Nat.max_le.mpr ⟨h.within, h'.within⟩
  start := by
    rcases Nat.le_total s.start s'.start with hle | hle
    · rw [Span.merge, Nat.min_eq_left hle]
      exact h.start
    · rw [Span.merge, Nat.min_eq_right hle]
      exact h'.start
  stop := by
    rcases Nat.le_total s.stop s'.stop with hle | hle
    · rw [Span.merge, Nat.max_eq_right hle]
      exact h'.stop
    · rw [Span.merge, Nat.max_eq_left hle]
      exact h.stop

theorem Parser.spanAt_within (h : ofText text = .ok p) (hk : k ≤ p.tokens.length) :
    (p.spanAt k).Within text := by
  rw [(spanAt_ofText h hk).1]
  exact Lexer.place_within (Lexer.tile_after (Lexer.standsIn_ofText text) k)

theorem Parser.span_skipTo_within (h : ofText text = .ok p) (left : Nat) :
    (p.skipTo left).span.Within text := by
  rw [span_skipTo]
  exact spanAt_within h (Nat.sub_le _ _)

theorem Parser.locate_within (h : ofText text = .ok p) (left : Nat) (fault : Fault) :
    (p.locate limit (p.skipTo left) fault).span.Within text := by
  have hstop := span_skipTo_within h left
  cases fault with
  | expected wanted => exact hstop
  | unclosed opened => exact (span_skipTo_within h opened).merge hstop
  | tooDeep => exact hstop

/-- The place of an error of the lexer is one of those that tile the text. -/
theorem LexError.span_within {e : LexError} (h : Parser.ofText text = .error e) :
    e.span.Within text := by
  obtain ⟨placed, -, -, ⟨-, htokens⟩ | ⟨e', hanswer, htokens⟩⟩ :=
    Lexer.tokenize_answers (Lexer.ofText text)
  all_goals
    unfold Parser.ofText at h
    rw [← Prod.eta (Lexer.ofText text).tokenize, htokens] at h
    cases h
  have hplace : ((Lexer.ofText text).after placed.length).place = e.span := by
    rw [Lexer.place, ← Prod.eta ((Lexer.ofText text).after placed.length).next]
    rw [Lexer.answer] at hanswer
    rw [hanswer]
  rw [← hplace]
  exact Lexer.place_within (Lexer.tile_after (Lexer.standsIn_ofText text) placed.length)

theorem readText_error_within {e : ParseError} (h : readText limit r text = .error e) :
    e.span.Within text := by
  unfold readText at h
  split at h
  next e' hlexical =>
    cases h
    exact LexError.span_within hlexical
  next p hp =>
    split at h
    next e' hrun =>
      cases h
      obtain ⟨fault, rest, -, rfl⟩ := Parser.run_error hrun
      exact Parser.locate_within hp rest.length fault
    next => cases h

/-! ### Texts -/

theorem Grammar.Pairing.bears {e : SyntaxError} (hr : Pairing [] r)
    (h : readText limit r text = .error (.grammatical e)) (hdeep : ∀ m, e.problem ≠ .tooDeep m) :
    ∃ p, Parser.ofText text = .ok p ∧ ∃ wanted k, p.Bears e wanted k := by
  obtain ⟨p, hp, herror⟩ := readText_grammatical h
  obtain ⟨fault, rest, hread, rfl⟩ := Parser.run_error herror
  have hfault : fault ≠ .tooDeep := by
    rintro rfl
    exact hdeep limit rfl
  obtain ⟨used, hkinds, hinnermost⟩ := hr.stops hread
  obtain ⟨wanted, hbears⟩ := Parser.bears_locate (Parser.ordered_ofText hp) hkinds hfault hinnermost
  exact ⟨p, hp, wanted, _, hbears⟩

/-- One of the functions that read a whole text fails on it. -/
def Fails (limit : Nat) (text : String) (e : ParseError) : Prop :=
  parseWithin limit text = .error e ∨ parseScriptWithin limit text = .error e ∨
    parseExprWithin limit text = .error e

/-- An error about tokens is true of the tokens of the text, and the place of any error is one
in the text. -/
theorem errors_truthful :
    (∀ limit text e, Fails limit text (.grammatical e) → (∀ m, e.problem ≠ .tooDeep m) →
      ∃ p, Parser.ofText text = .ok p ∧ ∃ wanted k, p.Bears e wanted k) ∧
    (∀ limit text e, Fails limit text e → e.span.Within text) := by
  refine ⟨fun limit text e h hdeep => ?_, fun limit text e h => ?_⟩
  · rcases h with h | h | h
    · exact (pairing_wholeStatement limit).bears h hdeep
    · exact (pairing_script limit).bears h hdeep
    · exact (pairing_wholeExpression limit).bears h hdeep
  · rcases h with h | h | h <;> exact readText_error_within h

/-- A parenthesis of a call behind another that is closed, a limit that is met, and a string
without its end. -/
theorem errors_truthful_unclosed :
    (Fails 5 "é = f((a), b LIKE 'c'" (.grammatical ⟨.unexpected (.closing 6) none, ⟨6, 22⟩⟩) ∧
      ∃ p, Parser.ofText "é = f((a), b LIKE 'c'" = .ok p ∧
        ∃ wanted k, p.Bears ⟨.unexpected (.closing 6) none, ⟨6, 22⟩⟩ wanted k) ∧
    (Fails 1 "SELECT (a)" (.grammatical ⟨.tooDeep 1, ⟨8, 9⟩⟩) ∧
      (Span.mk 8 9).Within "SELECT (a)") ∧
    (Fails 5 "SELECT a; 'é" (.lexical ⟨.unterminatedString, ⟨10, 13⟩⟩) ∧
      (Span.mk 10 13).Within "SELECT a; 'é") := by
  have hunclosed : Fails 5 "é = f((a), b LIKE 'c'"
      (.grammatical ⟨.unexpected (.closing 6) none, ⟨6, 22⟩⟩) :=
    .inr (.inr (by decide +kernel))
  have hdeep : Fails 1 "SELECT (a)" (.grammatical ⟨.tooDeep 1, ⟨8, 9⟩⟩) :=
    .inl (by decide +kernel)
  have hlexical : Fails 5 "SELECT a; 'é" (.lexical ⟨.unterminatedString, ⟨10, 13⟩⟩) :=
    .inr (.inl (by decide +kernel))
  exact ⟨⟨hunclosed, errors_truthful.1 _ _ _ hunclosed (by nofun)⟩,
    ⟨hdeep, errors_truthful.2 _ _ _ hdeep⟩, hlexical, errors_truthful.2 _ _ _ hlexical⟩

end QueryCanon
