/-
One statement, and a script of one.

A statement alone and a script are read by two loops of their own.  No semicolon is ever part
of a query, so the semicolons of a script cut it into the parts that its queries are read from,
each of them alone; and a text is one statement exactly if it is a script of one that neither
begins with a semicolon nor has two of them.
-/
import QueryCanon.Proofs.Canonical.Script
import QueryCanon.Proofs.Canonical.Survival
import QueryCanon.Proofs.Grammar.Balance
import QueryCanon.Proofs.Grammar.Completion

namespace QueryCanon

open Grammar

variable {n limit : Nat} {text : String} {ts us rest : List Token} {o : Option Query}
  {os : List (Option Query)} {q : Query} {qs : List Query}

namespace Grammar

/-! ### Between the semicolons -/

theorem Fills.unended (h : Fills n ts o) : .semicolon ∉ ts := by
  cases h with
  | empty => exact List.not_mem_nil
  | query hd => exact hd.sealed.unended

/-- There is one slot more than there are semicolons. -/
theorem Lists.length_eq (h : Lists n ts os) : os.length = ts.count .semicolon + 1 := by
  induction h with
  | last hfills => simp [List.count_eq_zero_of_not_mem hfills.unended]
  | more hfills _ ih => simp [List.count_eq_zero_of_not_mem hfills.unended, ih]

theorem intercalate_cons {part : List Token} {parts : List (List Token)} (h : parts ≠ []) :
    [Token.semicolon].intercalate (part :: parts) =
      part ++ .semicolon :: [Token.semicolon].intercalate parts := by
  obtain ⟨next, more, rfl⟩ := List.exists_cons_of_ne_nil h
  simp [List.intercalate]

/-- `parts` are what stands before, between and behind the semicolons of `ts`. -/
structure Cuts (ts : List Token) (parts : List (List Token)) : Prop where
  joined : ts = [Token.semicolon].intercalate parts
  unended : ∀ part ∈ parts, .semicolon ∉ part

/-- Each query of a script is read alone from one part of it, and nothing else stands there. -/
def ReadFrom (n : Nat) (parts : List (List Token)) (qs : List Query) : Prop :=
  (parts.filter (!·.isEmpty)).map (wholeStatement n).read = qs.map (.done · [])

theorem Fills.readFrom (h : Fills n ts o) : ReadFrom n [ts] o.toList := by
  cases h with
  | empty => exact rfl
  | @query ts q hd =>
    have hne : ts ≠ [] := by
      rintro rfl
      cases hd
    simpa [ReadFrom, hne] using wholeStatement_reads.complete hd

theorem ReadFrom.append {parts parts' : List (List Token)} {qs qs' : List Query}
    (h : ReadFrom n parts qs) (h' : ReadFrom n parts' qs') :
    ReadFrom n (parts ++ parts') (qs ++ qs') := by
  rw [ReadFrom, List.filter_append, List.map_append, List.map_append]
  rw [ReadFrom] at h h'
  rw [h, h']

theorem Lists.cut (h : Lists n ts os) :
    ∃ parts ≠ [], Cuts ts parts ∧ ReadFrom n parts (os.filterMap id) := by
  induction h with
  | @last ts o hfills =>
    have hcuts : Cuts ts [ts] := ⟨by simp [List.intercalate], by simpa using hfills.unended⟩
    have hread := hfills.readFrom
    refine ⟨[ts], List.cons_ne_nil _ _, hcuts, ?_⟩
    cases o <;> exact hread
  | @more ts o us os hfills _ ih =>
    obtain ⟨parts, hne, ⟨rfl, hunended⟩, hread⟩ := ih
    refine ⟨ts :: parts, List.cons_ne_nil _ _, ⟨(intercalate_cons hne).symm, ?_⟩, ?_⟩
    · exact List.forall_mem_cons.mpr ⟨hfills.unended, hunended⟩
    · have hboth := hfills.readFrom.append hread
      cases o <;> exact hboth

/-! ### A script of one -/

theorem wholeStatement_done_iff :
    (wholeStatement n).read ts = .done q rest ↔
      rest = [] ∧ ∃ us, (ts = us ∨ ts = us ++ [.semicolon]) ∧ Derives .longest n .query us q := by
  constructor
  · intro h
    obtain ⟨_, mid, _, hbehind⟩ := Reader.bind_done.mp h
    obtain ⟨_, mid', -, hend⟩ := Reader.bind_done.mp hbehind
    obtain ⟨_, left, hend, hpure⟩ := Reader.bind_done.mp hend
    obtain ⟨rfl, rfl⟩ := Reader.endOfInput_done.mp hend
    cases hpure
    exact ⟨rfl, wholeStatement_reads.sound h⟩
  · rintro ⟨rfl, us, rfl | rfl, hd⟩
    · exact wholeStatement_reads.complete hd
    · have hread : (statement n).read (us ++ [.semicolon]) = .done q [.semicolon] :=
        hd.completes [.semicolon] after_semicolon
      refine Reader.bind_done.mpr ⟨q, _, hread, Reader.accept_bind_done.mpr (.inl ⟨[], rfl, ?_⟩)⟩
      exact Reader.bind_done.mpr ⟨(), [], Reader.endOfInput_done.mpr ⟨rfl, rfl⟩, rfl⟩

theorem Derives.head?_query (h : Derives .longest n .query us q) :
    us.head? = some (.keyword .SELECT) := by
  cases h
  rfl

/-- A text is one statement if it is a script of one, without an empty slot before it and with
no more than one behind it. -/
theorem wholeStatement_done_iff_script :
    (wholeStatement n).read ts = .done q rest ↔
      (script n).read ts = .done [q] rest ∧ ts.head? ≠ some .semicolon ∧
        ts.count .semicolon ≤ 1 := by
  rw [wholeStatement_done_iff, script_done_iff]
  constructor
  · rintro ⟨rfl, us, hts, hd⟩
    have hunended := List.count_eq_zero_of_not_mem hd.sealed.unended
    have hhead := hd.head?_query
    rcases hts with rfl | rfl
    · exact ⟨⟨rfl, _, .last (.query hd), rfl⟩, by simp [hhead], by simp [hunended]⟩
    · exact ⟨⟨rfl, _, .more (.query hd) (.last .empty), rfl⟩, by simp [hhead], by simp [hunended]⟩
  · rintro ⟨⟨rfl, os, hlists, hqs⟩, hhead, hcount⟩
    refine ⟨rfl, ?_⟩
    cases hlists with
    | last hfills =>
      cases hfills with
      | empty => cases hqs
      | query hd =>
        cases hqs
        exact ⟨ts, .inl rfl, hd⟩
    | @more us o vs os hfills hmore =>
      have hvs : vs.count .semicolon = 0 := by
        rw [List.count_append, List.count_cons_self] at hcount
        omega
      cases hfills with
      | empty => exact absurd rfl hhead
      | query hd =>
        cases hmore with
        | more => simp at hvs
        | last hlast =>
          cases hlast with
          | query => cases hqs
          | empty =>
            cases hqs
            exact ⟨us, .inr rfl, hd⟩

end Grammar

/-! ### Texts -/

theorem tokens?_eq {p : Parser} (h : Parser.ofText text = .ok p) : tokens? text = some p.kinds := by
  rw [tokens?, h]
  rfl

/-- What a text is read as depends on its tokens alone. -/
theorem readText_ok_iff {α : Type} {r : Grammar.Reader α} {a : α} :
    readText limit r text = .ok a ↔
      ∃ ts rest, tokens? text = some ts ∧ r.read ts = .done a rest := by
  constructor
  · intro h
    obtain ⟨p, rest, hp, hread⟩ := readText_ok h
    exact ⟨_, rest, tokens?_eq hp, hread⟩
  · rintro ⟨ts, rest, hts, hread⟩
    obtain ⟨p, hp, rfl⟩ := Option.map_eq_some_iff.mp hts
    exact readText_of_done (ok_of_toOption hp) hread

theorem parseWithin_iff_script :
    parseWithin limit text = .ok q ↔
      parseScriptWithin limit text = .ok [q] ∧ ∃ ts, tokens? text = some ts ∧
        ts.head? ≠ some .semicolon ∧ ts.count .semicolon ≤ 1 := by
  refine readText_ok_iff.trans ⟨?_, ?_⟩
  · rintro ⟨ts, rest, hts, hread⟩
    obtain ⟨hscript, hsemicolons⟩ := wholeStatement_done_iff_script.mp hread
    exact ⟨readText_ok_iff.mpr ⟨ts, rest, hts, hscript⟩, ts, hts, hsemicolons⟩
  · rintro ⟨hscript, ts, hts, hsemicolons⟩
    obtain ⟨ts', rest, hts', hread⟩ := readText_ok_iff.mp hscript
    obtain rfl : ts' = ts := Option.some.inj (hts'.symm.trans hts)
    exact ⟨ts', rest, hts, wholeStatement_done_iff_script.mpr ⟨hread, hsemicolons⟩⟩

/-- One statement and a script of one are the same, but for semicolons that stand where the one
has no place for them; they have the same canonical text, up to the end of the line. And the
semicolons of a script cut it into the parts that its queries are read from. -/
theorem parse_parseScript_agree :
    (∀ limit text q, parseWithin limit text = .ok q ↔
      parseScriptWithin limit text = .ok [q] ∧ ∃ ts, tokens? text = some ts ∧
        ts.head? ≠ some .semicolon ∧ ts.count .semicolon ≤ 1) ∧
    (∀ text q, parse text = .ok q → ∃ canonical, canonicalize text = .ok canonical ∧
      format text = .ok (canonical ++ "\n")) ∧
    (∀ limit text qs, parseScriptWithin limit text = .ok qs → ∃ ts parts,
      tokens? text = some ts ∧ qs.length ≤ ts.count .semicolon + 1 ∧ Cuts ts parts ∧
        ReadFrom limit parts qs ∧ ∀ q ∈ qs, .semicolon ∉ q.tokens) := by
  refine ⟨fun _ _ _ => parseWithin_iff_script, fun text q h => ?_, fun limit text qs h => ?_⟩
  · obtain ⟨hscript, -⟩ := parseWithin_iff_script.mp h
    refine ⟨q.text, by rw [canonicalize_eq, h]; rfl, ?_⟩
    rw [format_eq, show parseScript text = .ok [q] from hscript]
    exact congrArg Except.ok (by simp [render, line])
  · obtain ⟨ts, rest, hts, hread⟩ := readText_ok_iff.mp h
    obtain ⟨-, os, hlists, rfl⟩ := script_done_iff.mp hread
    obtain ⟨parts, -, hcuts, hfrom⟩ := hlists.cut
    refine ⟨ts, parts, hts, ?_, hcuts, hfrom, fun q hq => ?_⟩
    · rw [← hlists.length_eq]
      exact List.length_filterMap_le id os
    · exact (((accepted_of_parseScript h q hq).spelled _ (Nat.le_refl _)).sealed).unended

/-- A semicolon in a string ends no query, and empty statements are none. -/
theorem parse_parseScript_agree_quotedSemicolon :
    (parse "select ';';" = .ok (.ofExpr (.literal (.string ";"))) ∧
      ∃ canonical, canonicalize "select ';';" = .ok canonical ∧
        format "select ';';" = .ok (canonical ++ "\n")) ∧
    (parseScriptWithin 3 ";select ';';;select a" =
        .ok [.ofExpr (.literal (.string ";")), .ofExpr (.column ⟨none, "a"⟩)] ∧
      ∃ ts parts, tokens? ";select ';';;select a" = some ts ∧ 2 ≤ ts.count .semicolon + 1 ∧
        Cuts ts parts ∧
        ReadFrom 3 parts [.ofExpr (.literal (.string ";")), .ofExpr (.column ⟨none, "a"⟩)] ∧
        ∀ q ∈ [Query.ofExpr (.literal (.string ";")), .ofExpr (.column ⟨none, "a"⟩)],
          .semicolon ∉ q.tokens) := by
  have hstatement : parse "select ';';" = .ok (.ofExpr (.literal (.string ";"))) :=
    ok_of_toOption (by decide +kernel)
  have hscript : parseScriptWithin 3 ";select ';';;select a" =
      .ok [.ofExpr (.literal (.string ";")), .ofExpr (.column ⟨none, "a"⟩)] :=
    ok_of_toOption (by decide +kernel)
  exact ⟨⟨hstatement, parse_parseScript_agree.2.1 _ _ hstatement⟩, hscript,
    parse_parseScript_agree.2.2 _ _ _ hscript⟩

end QueryCanon
