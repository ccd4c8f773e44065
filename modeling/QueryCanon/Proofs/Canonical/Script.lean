/-
Scripts in their canonical form, formatted again.

`render` gives each query a line of its own.  The semicolons that close the lines of a longer
script keep its queries apart, whatever these contain, so the text reads back as the wrapped
queries, no more and no fewer.  These are written alike, and formatting comes to rest
(`format_stable`).
-/
import QueryCanon.Proofs.Canonical.Reparse
import QueryCanon.Proofs.Grammar.Peak
import QueryCanon.Proofs.Grammar.Script
import QueryCanon.Proofs.Lexical.Context
import QueryCanon.Proofs.Query.Headroom

namespace QueryCanon

open Grammar
open Lexer (Makes)

variable {n m limit : Nat} {text : String} {q : Query} {qs : List Query} {us : List Token}
  {rest : List Char}

/-! ### The text of a script -/

/-- The tokens that a script is written with. -/
def scriptTokens : List Query → List Token
  | [q] => q.tokens
  | queries => queries.flatMap fun q => q.tokens ++ [.semicolon]

/-- The tokens of the query can be written. -/
structure Query.Laid (q : Query) : Prop where
  lexical : ∀ t ∈ q.tokens, t.IsLexical
  pointed : Pointed q.tokens

/-- Lines are closed by a semicolon where there is more than one. -/
theorem render_eq (qs : List Query) :
    render qs = String.join (qs.map (line (if 1 < qs.length then ";" else ""))) := by
  match qs with
  | [] => rfl
  | [q] => exact String.empty_append.symm
  | q :: q' :: more => simp [render]

theorem toList_line (ending : String) (q : Query) :
    (line ending q).toList = Layout.chars q.tokens ++ (ending.toList ++ ['\n']) := by
  simp [line, Query.text_eq, Layout.text]

theorem makes_newline (h : Makes rest us) : Makes ('\n' :: rest) us :=
  Lexer.makes_gap (.blank (by decide) .nil) h

/-- A query on a line of its own, in front of other lines. -/
theorem Query.Laid.makes_line (h : q.Laid) (hrest : Makes rest us) :
    Makes ((line ";" q).toList ++ rest) (q.tokens ++ .semicolon :: us) := by
  have hstops : Lexeme.Stops (';' :: '\n' :: rest) := Lexeme.stops_cons (by decide) (by decide) _
  have hleads := Lexeme.leads_spelling (t := .semicolon) trivial fun _ => Lexer.stops_newline rest
  have hsemicolon : Makes (';' :: '\n' :: rest) (.semicolon :: us) :=
    Lexer.makes_cons hleads (makes_newline hrest)
  rw [toList_line, List.append_assoc]
  exact Layout.makes_chars_append h.lexical h.pointed hstops hsemicolon

theorem makes_lines (h : ∀ q ∈ qs, q.Laid) :
    Makes (String.join (qs.map (line ";"))).toList
      (qs.flatMap fun q => q.tokens ++ [.semicolon]) := by
  rw [String.toList_join, List.flatMap_map]
  induction qs with
  | nil => exact Lexer.makes_nil
  | cons q qs ih =>
    obtain ⟨hq, hqs⟩ := List.forall_mem_cons.mp h
    rw [List.flatMap_cons, List.flatMap_cons, List.append_assoc]
    exact hq.makes_line (ih hqs)

/-- The canonical text of a script makes its tokens. -/
theorem makes_render (h : ∀ q ∈ qs, q.Laid) : Makes (render qs).toList (scriptTokens qs) := by
  match qs with
  | [] => exact makes_lines h
  | [q] =>
    have hq : q.Laid := h q (List.mem_singleton_self q)
    have hline := Layout.makes_chars_append hq.lexical hq.pointed (Lexer.stops_newline [])
      (makes_newline Lexer.makes_nil)
    rw [List.append_nil] at hline
    rw [render, toList_line]
    exact hline
  | _ :: _ :: _ => exact makes_lines h

/-! ### What is read from it -/

theorem lists_lines (h : ∀ q ∈ qs, Derives .longest n .query q.tokens q.wrapped) :
    Lists n (qs.flatMap fun q => q.tokens ++ [.semicolon])
      (qs.map (fun q => some q.wrapped) ++ [none]) := by
  induction qs with
  | nil => exact .last .empty
  | cons q qs ih =>
    obtain ⟨hq, hqs⟩ := List.forall_mem_cons.mp h
    rw [List.flatMap_cons, List.append_assoc]
    exact .more (.query hq) (ih hqs)

/-- The tokens of a script list its queries, wrapped. -/
theorem read_scriptTokens (h : ∀ q ∈ qs, Derives .longest n .query q.tokens q.wrapped) :
    (script n).read (scriptTokens qs) = .done (qs.map Query.wrapped) [] := by
  refine script_done_iff.mpr ⟨rfl, ?_⟩
  match qs with
  | [] => exact ⟨_, lists_lines h, rfl⟩
  | [q] => exact ⟨[some q.wrapped], .last (.query (h q (List.mem_singleton_self q))), rfl⟩
  | _ :: _ :: _ => exact ⟨_, lists_lines h, by simp⟩

/-- The levels of the deepest query. -/
def scriptLevels (qs : List Query) : Nat := (qs.map Query.levels).foldr max 0

theorem scriptLevels_le_iff : scriptLevels qs ≤ n ↔ ∀ q ∈ qs, q.levels ≤ n := by
  rw [scriptLevels, foldr_max_le, List.forall_mem_map]

/-- What is shown of the queries of a text that is read within `limit`. -/
structure Query.Accepted (limit : Nat) (q : Query) : Prop where
  laid : q.Laid
  levels_le : q.levels ≤ limit
  spelled : ∀ n, q.wrapped.levels ≤ n → Derives .longest n .query q.tokens q.wrapped

theorem accepted_of_parseScript (h : parseScriptWithin limit text = .ok qs) :
    ∀ q ∈ qs, q.Accepted limit := by
  obtain ⟨p, left, hp, hdone⟩ := readText_ok h
  intro q hq
  obtain ⟨used, hused, hd⟩ := script_sound hdone q hq
  have hlexical : ∀ t ∈ used, t.IsLexical := fun t ht =>
    Parser.isLexical_ofText hp t (hused.subset ht)
  have hspelled := hd.canonical.spelled rfl
  exact ⟨⟨wholeStatement_reads.lexical hlexical (wholeStatement_reads.complete hd),
    (hspelled _ (Nat.le_refl _)).pointed⟩, hd.levels_le, hspelled⟩

/-- A script reads back from its canonical form as its queries, wrapped. -/
theorem script_readsBack (h : parseScriptWithin limit text = .ok qs) :
    ReadsBack parseScriptWithin (render qs) (qs.map Query.wrapped)
      (scriptLevels (qs.map Query.wrapped)) := by
  have haccepted := accepted_of_parseScript h
  obtain ⟨p, hp, htokens⟩ := Parser.ofText_of_makes (makes_render fun q hq => (haccepted q hq).laid)
  have hread : ∀ n, scriptLevels (qs.map Query.wrapped) ≤ n →
      (script n).read (p.tokens.map (·.token)) = .done (qs.map Query.wrapped) [] := by
    intro n hn
    rw [htokens]
    refine read_scriptTokens fun q hq => (haccepted q hq).spelled n ?_
    exact scriptLevels_le_iff.mp hn _ (List.mem_map_of_mem hq)
  refine ⟨fun n hn => readText_of_done hp (hread n hn), fun n hn => ?_⟩
  rcases (script_capped (Nat.le_of_lt hn)).read_eq_or (p.tokens.map (·.token)) with hsame | hdeep
  · -- Had it been read, the wrapped queries would fit under the limit.
    rw [hread _ (Nat.le_refl _)] at hsame
    refine absurd (scriptLevels_le_iff.mpr fun q hq => ?_) (Nat.not_le.mpr hn)
    obtain ⟨used, -, hd⟩ := script_sound hsame q hq
    exact hd.levels_le
  · obtain ⟨left, hdeep⟩ := hdeep
    exact readText_of_tooDeep hp hdeep

/-! ### Formatting again -/

theorem ReadsBack.map {α β : Type} {parseWithin : Nat → String → Except ParseError α} {a : α}
    {levels : Nat} (f : String → α → β) (h : ReadsBack parseWithin text a levels) :
    ReadsBack (fun limit text => (parseWithin limit text).map (f text)) text (f text a) levels where
  enough limit hlimit := by
    rw [h.enough limit hlimit]
    rfl
  tooDeep limit hlimit := by
    obtain ⟨span, herror⟩ := h.tooDeep limit hlimit
    exact ⟨span, by rw [herror]; rfl⟩

theorem line_wrapped (ending : String) (q : Query) : line ending q.wrapped = line ending q := by
  rw [line, line, Query.text_wrapped]

theorem render_wrapped (qs : List Query) : render (qs.map Query.wrapped) = render qs := by
  rw [render_eq, render_eq, List.length_map, List.map_map]
  exact congrArg String.join (List.map_congr_left fun q _ => line_wrapped _ q)

theorem format_ok {formatted : String} (h : formatWithin limit text = .ok formatted) :
    ∃ qs, parseScriptWithin limit text = .ok qs ∧ render qs = formatted :=
  exists_of_map_ok h

theorem scriptLevels_wrapped_le (h : ∀ q ∈ qs, q.levels ≤ n) :
    scriptLevels (qs.map Query.wrapped) ≤ 2 * n := by
  refine scriptLevels_le_iff.mpr fun q hq => ?_
  obtain ⟨p, hp, rfl⟩ := List.mem_map.mp hq
  have hlevels := p.levels_wrapped_le
  have hn := h p hp
  omega

/-- What a script is formatted to is formatted to itself. -/
theorem format_readsBack (h : parseScriptWithin limit text = .ok qs) :
    ReadsBack formatWithin (render qs) (render qs) (scriptLevels (qs.map Query.wrapped)) := by
  have hrender := (script_readsBack h).map fun _ qs => render qs
  rw [render_wrapped] at hrender
  exact hrender

theorem isCanonical_readsBack (h : parseScriptWithin limit text = .ok qs) :
    ReadsBack isCanonicalWithin (render qs) true (scriptLevels (qs.map Query.wrapped)) := by
  have hsame := (format_readsBack h).map fun text formatted => sameUpToTrailingBlanks formatted text
  have hrefl : sameUpToTrailingBlanks (render qs) (render qs) = true := beq_self_eq_true _
  rw [hrefl] at hsame
  exact hsame

/-- So nothing is ever formatted twice to something new. -/
theorem eq_of_format_render {formatted : String} (h : parseScript text = .ok qs)
    (hformat : format (render qs) = .ok formatted) : formatted = render qs := by
  have hback := format_readsBack h
  rw [format] at hformat
  rcases Nat.lt_or_ge nestingLimit (scriptLevels (qs.map Query.wrapped)) with hlt | hle
  · obtain ⟨span, herror⟩ := hback.tooDeep nestingLimit hlt
    rw [herror] at hformat
    cases hformat
  · rw [hback.enough nestingLimit hle] at hformat
    cases hformat
    rfl

/-- The canonical form of a script is read, if the limit on nesting leaves room for the wrapped
queries, as queries that are written as those of the script, and is its own canonical form. -/
theorem format_stable {formatted : String} (h : format text = .ok formatted) :
    ∃ qs qs' levels, parseScript text = .ok qs ∧
      formatted = String.join (qs.map (line (if 1 < qs.length then ";" else ""))) ∧
      qs'.map Query.text = qs.map Query.text ∧ levels ≤ 2 * nestingLimit ∧
      ReadsBack parseScriptWithin formatted qs' levels ∧
      ReadsBack formatWithin formatted formatted levels ∧
      ReadsBack isCanonicalWithin formatted true levels := by
  obtain ⟨qs, hparse, rfl⟩ := format_ok h
  have hlevels :=
    scriptLevels_wrapped_le fun q hq => (accepted_of_parseScript hparse q hq).levels_le
  have htexts : (qs.map Query.wrapped).map Query.text = qs.map Query.text := by
    rw [List.map_map]
    exact List.map_congr_left fun q _ => q.text_wrapped
  exact ⟨qs, _, _, hparse, render_eq qs, htexts, hlevels, script_readsBack hparse,
    format_readsBack hparse, isCanonical_readsBack hparse⟩

/-- Two queries among empty statements, the first of them with a string that looks like the end
of a statement and a comment. -/
theorem format_stable_quotedSemicolon :
    format ";select 'a;\n-- b';; select a where not b = 1 -- c" =
        .ok "SELECT 'a;\n-- b';\nSELECT a WHERE b <> 1;\n" ∧
      ∃ qs qs' levels, parseScript ";select 'a;\n-- b';; select a where not b = 1 -- c" = .ok qs ∧
        "SELECT 'a;\n-- b';\nSELECT a WHERE b <> 1;\n" =
          String.join (qs.map (line (if 1 < qs.length then ";" else ""))) ∧
        qs'.map Query.text = qs.map Query.text ∧ levels ≤ 2 * nestingLimit ∧
        ReadsBack parseScriptWithin "SELECT 'a;\n-- b';\nSELECT a WHERE b <> 1;\n" qs' levels ∧
        ReadsBack formatWithin "SELECT 'a;\n-- b';\nSELECT a WHERE b <> 1;\n"
          "SELECT 'a;\n-- b';\nSELECT a WHERE b <> 1;\n" levels ∧
        ReadsBack isCanonicalWithin "SELECT 'a;\n-- b';\nSELECT a WHERE b <> 1;\n" true levels := by
  have hformat : format ";select 'a;\n-- b';; select a where not b = 1 -- c" =
      .ok "SELECT 'a;\n-- b';\nSELECT a WHERE b <> 1;\n" :=
    ok_of_toOption (by decide +kernel)
  exact ⟨hformat, format_stable hformat⟩

end QueryCanon
