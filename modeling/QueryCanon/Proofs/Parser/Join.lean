/-
Two scripts in one text.

With a semicolon on a line of its own between them, two scripts are read one after the other:
the queries of the second come behind those of the first, and if the second cannot be read, the
error is the one that it has alone, at a place further on (`scripts_join`).
-/
import QueryCanon.Canonical
import QueryCanon.Proofs.Canonical.Reparse
import QueryCanon.Proofs.Grammar.Completion
import QueryCanon.Proofs.Lexical.Context
import QueryCanon.Proofs.Parser.Prefix

namespace QueryCanon

open Grammar

/-! ### Errors further on -/

/-- `e'` is `e` in a text that has `n` bytes more before it.  If it is about a parenthesis, the
place that it names is further on, too. -/
structure SyntaxError.MovedBy (n : Nat) (e e' : SyntaxError) : Prop where
  span : e'.span = e.span.shift n
  found : e'.problem.found? = e.problem.found?
  wanted : e'.problem.wanted? = e.problem.wanted? ∨
    ∃ opened, e.problem.wanted? = some (.closing opened) ∧
      e'.problem.wanted? = some (.closing (opened + n))
  tooDeep : ∀ limit, e'.problem = .tooDeep limit ↔ e.problem = .tooDeep limit

theorem Span.merge_shift (n : Nat) (a b : Span) :
    (a.merge b).shift n = (a.shift n).merge (b.shift n) := by
  simp [Span.shift, Span.merge, Nat.add_min_add_right, Nat.add_max_add_right]

namespace Parser

variable {before : List Placed} {n limit left : Nat} {p : Parser}

/-- What is left of a text that stands behind `n` bytes with the tokens `before`. -/
def behind (before : List Placed) (n : Nat) (p : Parser) : Parser :=
  ⟨before ++ p.tokens.map (Placed.shift n), p.length + n⟩

theorem kinds_behind (before : List Placed) (n : Nat) (p : Parser) :
    (p.behind before n).kinds = before.map (·.token) ++ p.kinds := by
  simp [kinds, behind, Placed.shift, Function.comp_def]

theorem skipTo_behind (h : left ≤ p.tokens.length) :
    (p.behind before n).skipTo left = (p.skipTo left).behind [] n := by
  have hlength : (p.behind before n).tokens.length - left =
      before.length + (p.tokens.length - left) := by
    simp only [behind, List.length_append, List.length_map]
    omega
  rw [skipTo, hlength, behind, behind, skipTo]
  simp [List.drop_append]

theorem next?_behind (n : Nat) (p : Parser) : (p.behind [] n).next? = p.next? := by
  cases htokens : p.tokens <;> simp [next?, behind, htokens, Placed.shift]

theorem span_behind (n : Nat) (p : Parser) : (p.behind [] n).span = p.span.shift n := by
  cases htokens : p.tokens <;> simp [span, behind, htokens, Placed.shift, Span.shift, Span.point]

/-- A fault found behind another text is the same error further on. -/
theorem locate_behind {fault : Fault} {used rest : List Token} (hkinds : p.kinds = used ++ rest)
    (hamong : fault.Among used rest) :
    (p.locate limit (p.skipTo rest.length) fault).MovedBy n
      ((p.behind before n).locate limit ((p.behind before n).skipTo rest.length) fault) := by
  have hlength := length_of_kinds hkinds
  have hstop : rest.length ≤ p.tokens.length := by omega
  rw [skipTo_behind hstop]
  cases fault with
  | tooDeep =>
    rw [locate, locate, span_behind]
    exact ⟨rfl, rfl, .inl rfl, fun _ => Iff.rfl⟩
  | expected wanted =>
    rw [locate, locate, span_behind, next?_behind]
    exact ⟨rfl, rfl, .inl rfl, fun _ => ⟨(by cases ·), (by cases ·)⟩⟩
  | unclosed opened =>
    obtain ⟨outer, inner, rfl, hopened⟩ := hamong
    have hparen : opened ≤ p.tokens.length := by
      simp only [List.length_append, List.length_cons] at hlength hopened
      omega
    dsimp only [locate]
    rw [skipTo_behind hparen, span_behind, span_behind, next?_behind, ← Span.merge_shift]
    exact ⟨rfl, rfl, .inr ⟨_, rfl, rfl⟩, fun _ => ⟨(by cases ·), (by cases ·)⟩⟩

end Parser

/-! ### Texts -/

theorem Lexer.tokenize_semicolon (pos : Nat) (rest : List Char) :
    (Lexer.mk pos (';' :: rest)).tokenize.1 =
      (Lexer.mk (pos + 1) rest).tokenize.1.map (⟨.semicolon, pos, pos + 1⟩ :: ·) := by
  have hsplit : Gap.split (';' :: rest) = ([], ';' :: rest) :=
    Gap.split_of_solid (by decide) (by decide) (by decide)
  have hnext : (Lexer.mk pos (';' :: rest)).next =
      (.ok (some ⟨.semicolon, pos, pos + 1⟩), ⟨pos + 1, rest⟩) := by
    unfold next
    rw [hsplit]
    rfl
  exact tokenize_of_token hnext

theorem Lexer.tokenize_newline (pos : Nat) (rest : List Char) :
    (Lexer.mk pos ('\n' :: rest)).tokenize.1 = (Lexer.mk (pos + 1) rest).tokenize.1 :=
  tokenize_congr (next_gap (.blank Gap.isBlank_newline .nil) pos rest)

/-- The tokens of a text stand before a semicolon on a line of its own, and those of another
text behind it. -/
theorem Parser.ofText_join {x : String} {p : Parser} (hx : ofText x = .ok p) (y : String) :
    ∃ before : List Placed, before.map (·.token) = p.kinds ++ [.semicolon] ∧
      ofText (x ++ "\n;\n" ++ y) =
        ((ofText y).map (behind before (x.utf8ByteSize + 3))).mapError
          (LexError.shift (x.utf8ByteSize + 3)) := by
  rw [ofText_eq] at hx
  cases hplaced : (Lexer.ofText x).tokenize.1 with
  | error e =>
    rw [hplaced] at hx
    cases hx
  | ok placed =>
    rw [hplaced] at hx
    cases hx
    let semicolon : Placed := ⟨.semicolon, x.utf8ByteSize + 1, x.utf8ByteSize + 2⟩
    have hstart : Lexer.ofText (x ++ "\n;\n" ++ y) =
        ⟨(Lexer.ofText x).pos, (Lexer.ofText x).rest ++ '\n' :: (';' :: '\n' :: y.toList)⟩ := by
      simp [Lexer.ofText]
    have hlength : (x ++ "\n;\n" ++ y).utf8ByteSize = y.utf8ByteSize + (x.utf8ByteSize + 3) := by
      have hmiddle : "\n;\n".utf8ByteSize = 3 := rfl
      rw [String.utf8ByteSize_append, String.utf8ByteSize_append, hmiddle]
      omega
    have hend : (Lexer.ofText x).pos + utf8Length (Lexer.ofText x).rest = x.utf8ByteSize := by
      simp [Lexer.ofText, utf8ByteSize_eq]
    have hbehind : Lexer.mk ((Lexer.ofText x).pos + utf8Length (Lexer.ofText x).rest + 1 + 1 + 1)
        y.toList = (Lexer.ofText y).shift (x.utf8ByteSize + 3) := by
      rw [hend]
      simp [Lexer.ofText, Lexer.shift]
    refine ⟨placed ++ [semicolon], by simp [kinds, semicolon], ?_⟩
    rw [ofText_eq, ofText_eq, hstart, Lexer.tokenize_append_newline hplaced,
      Lexer.tokenize_semicolon, Lexer.tokenize_newline, hbehind, Lexer.tokenize_shift]
    cases (Lexer.ofText y).tokenize.1 with
    | error e => rfl
    | ok more =>
      simp [Except.map, mapError_ok, behind, semicolon, hlength, hend]

variable {limit : Nat} {qs : List Query}

theorem readText_lexical {α : Type} {r : Reader α} {text : String} {e : LexError}
    (h : readText limit r text = .error (.lexical e)) : Parser.ofText text = .error e := by
  unfold readText at h
  split at h
  · next e' he =>
    cases h
    exact he
  · split at h <;> cases h

/-- A script and another one behind it, with a semicolon on a line of its own between them.  The
queries of the second come behind those of the first, and its error, if it has one, is the error of
the whole. -/
theorem scripts_join {x : String} (hx : parseScriptWithin limit x = .ok qs) (y : String) :
    (∀ qs', parseScriptWithin limit y = .ok qs' →
      parseScriptWithin limit (x ++ "\n;\n" ++ y) = .ok (qs ++ qs')) ∧
    (∀ e, parseScriptWithin limit y = .error (.lexical e) →
      parseScriptWithin limit (x ++ "\n;\n" ++ y) =
        .error (.lexical (e.shift (x.utf8ByteSize + 3)))) ∧
    (∀ e, parseScriptWithin limit y = .error (.grammatical e) →
      ∃ e', parseScriptWithin limit (x ++ "\n;\n" ++ y) = .error (.grammatical e') ∧
        e.MovedBy (x.utf8ByteSize + 3) e') := by
  obtain ⟨p, left, hp, hdone⟩ := readText_ok hx
  obtain ⟨before, hbefore, hjoin⟩ := Parser.ofText_join hp y
  have hread : ∀ py : Parser, (script limit).read (py.behind before (x.utf8ByteSize + 3)).kinds =
      ((script limit).read py.kinds).map (qs ++ ·) := by
    intro py
    rw [Parser.kinds_behind, hbefore, List.append_assoc]
    exact script_read_append hdone py.kinds
  refine ⟨fun qs' hy => ?_, fun e hy => ?_, fun e hy => ?_⟩
  · obtain ⟨py, rest, hpy, hrest⟩ := readText_ok hy
    have hboth := hread py
    rw [Parser.kinds, Parser.kinds, hrest] at hboth
    rw [hpy] at hjoin
    exact readText_of_done hjoin hboth
  · rw [readText_lexical hy] at hjoin
    rw [parseScriptWithin, readText, hjoin]
    rfl
  · obtain ⟨py, hpy, herror⟩ := readText_grammatical hy
    obtain ⟨fault, rest, hfailed, rfl⟩ := Parser.run_error herror
    obtain ⟨used, hkinds, hamong⟩ := script_failsViably.among hfailed
    have hboth := hread py
    rw [hfailed] at hboth
    rw [hpy] at hjoin
    have hjoined : parseScriptWithin limit (x ++ "\n;\n" ++ y) =
        .error (.grammatical ((py.behind before (x.utf8ByteSize + 3)).locate limit
          ((py.behind before (x.utf8ByteSize + 3)).skipTo rest.length) fault)) := by
      rw [parseScriptWithin, readText, hjoin]
      dsimp only [Except.map, mapError_ok]
      rw [Parser.run_failed hboth]
    exact ⟨_, hjoined, Parser.locate_behind hkinds hamong⟩

/-- Behind an empty statement and a comment at the end: an empty statement and a query, a string
that is not closed, and a parenthesis that is not. -/
theorem scripts_join_comment :
    parseScriptWithin 5 "SELECT a;; -- é" = .ok [.ofExpr (.column ⟨none, "a"⟩)] ∧
    parseScriptWithin 5 ("SELECT a;; -- é" ++ "\n;\n" ++ ";SELECT b") =
      .ok ([.ofExpr (.column ⟨none, "a"⟩)] ++ [.ofExpr (.column ⟨none, "b"⟩)]) ∧
    parseScriptWithin 5 ("SELECT a;; -- é" ++ "\n;\n" ++ "SELECT 'b") =
      .error (.lexical (LexError.shift 19 ⟨.unterminatedString, ⟨7, 9⟩⟩)) ∧
    ∃ e', parseScriptWithin 5 ("SELECT a;; -- é" ++ "\n;\n" ++ "SELECT a WHERE (b") =
        .error (.grammatical e') ∧
      SyntaxError.MovedBy 19 ⟨.unexpected (.closing 15) none, ⟨15, 17⟩⟩ e' := by
  have hfirst : parseScriptWithin 5 "SELECT a;; -- é" = .ok [.ofExpr (.column ⟨none, "a"⟩)] :=
    ok_of_toOption (by decide +kernel)
  have hquery : parseScriptWithin 5 ";SELECT b" = .ok [.ofExpr (.column ⟨none, "b"⟩)] :=
    ok_of_toOption (by decide +kernel)
  have hlexical : parseScriptWithin 5 "SELECT 'b" =
      .error (.lexical ⟨.unterminatedString, ⟨7, 9⟩⟩) := by
    decide +kernel
  have hgrammatical : parseScriptWithin 5 "SELECT a WHERE (b" =
      .error (.grammatical ⟨.unexpected (.closing 15) none, ⟨15, 17⟩⟩) := by
    decide +kernel
  exact ⟨hfirst, (scripts_join hfirst _).1 _ hquery, (scripts_join hfirst _).2.1 _ hlexical,
    (scripts_join hfirst _).2.2 _ hgrammatical⟩

end QueryCanon
