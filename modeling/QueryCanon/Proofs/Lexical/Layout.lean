/-
A text in canonical layout reads back as the tokens it was laid out from.

A number must not run into a point.  In a `Pointed` list every point has a name behind it,
and with that no token goes on with what stands behind it.  So the lexer finds every token at
the place that the layout gives it (`tokenize_chars_append`).
-/
import QueryCanon.Layout
import QueryCanon.Parser
import QueryCanon.Proofs.Lexical.Gap

namespace QueryCanon

variable {ts us : List Token} {t u : Token} {text rest : List Char}

/-! ### Texts and their tokens -/

namespace Lexer

open Gap (IsGap)
open Lexeme (Leads LeadsAs)

variable {l l' after : Lexer} {p : Placed} {e : LexError}

theorem tokenize_of_token (h : l.next = (.ok (some p), after)) :
    l.tokenize.1 = after.tokenize.1.map (p :: ·) := by
  rw [tokenize]
  split
  · next hnext => cases h.symm.trans hnext
  · next hnext => cases h.symm.trans hnext
  · next hnext =>
    cases h.symm.trans hnext
    rfl

theorem tokenize_of_end (h : l.next = (.ok none, after)) : l.tokenize.1 = .ok [] := by
  rw [tokenize]
  split
  · next hnext => cases h.symm.trans hnext
  · rfl
  · next hnext => cases h.symm.trans hnext

theorem tokenize_of_error (h : l.next = (.error e, after)) : l.tokenize.1 = .error e := by
  rw [tokenize]
  split
  · next hnext =>
    cases h.symm.trans hnext
    rfl
  · next hnext => cases h.symm.trans hnext
  · next hnext => cases h.symm.trans hnext

theorem tokenize_congr (h : l.next = l'.next) : l.tokenize.1 = l'.tokenize.1 := by
  rcases hnext : l'.next with ⟨e | _ | p, after⟩
  · rw [tokenize_of_error hnext, tokenize_of_error (h.trans hnext)]
  · rw [tokenize_of_end hnext, tokenize_of_end (h.trans hnext)]
  · rw [tokenize_of_token hnext, tokenize_of_token (h.trans hnext)]

theorem isLexical_next (h : l.next = (.ok (some p), after)) : p.token.IsLexical := by
  simp only [next] at h
  split at h
  · cases h
  · split at h
    · next hcontent =>
      cases h
      exact Lexeme.isLexical_read hcontent
    · cases h

/-- The tokens of a text are lexical. -/
theorem isLexical_tokenize {placed : List Placed} (h : l.tokenize.1 = .ok placed) :
    ∀ t ∈ placed.map (·.token), t.IsLexical := by
  -- On the length of the text left, of which every token takes something.
  induction hlength : l.rest.length using Nat.strongRecOn generalizing l placed with
  | ind length ih =>
    rcases hnext : l.next with ⟨e | _ | p, after⟩
    · rw [tokenize_of_error hnext] at h
      cases h
    · rw [tokenize_of_end hnext] at h
      cases h
      nofun
    · rw [tokenize_of_token hnext] at h
      obtain ⟨more, hmore, rfl⟩ : ∃ more, after.tokenize.1 = .ok more ∧ p :: more = placed := by
        cases htokens : after.tokenize.1 with
        | error e =>
          rw [htokens] at h
          cases h
        | ok more =>
          rw [htokens] at h
          cases h
          exact ⟨more, rfl, rfl⟩
      have hshorter := length_next_lt hnext
      have hrest := ih _ (hlength ▸ hshorter) hmore rfl
      exact List.forall_mem_cons.mpr ⟨isLexical_next hnext, hrest⟩

/-- Wherever it stands, the text makes the tokens. -/
def Makes (text : List Char) (ts : List Token) : Prop :=
  ∀ pos, ∃ placed, (Lexer.mk pos text).tokenize.1 = .ok placed ∧ placed.map (·.token) = ts

theorem next_nil (pos : Nat) : (Lexer.mk pos []).next = (.ok none, ⟨pos, []⟩) := by
  unfold next
  rw [Gap.split_nil]
  rfl

theorem makes_nil : Makes [] [] := fun pos => ⟨[], tokenize_of_end (next_nil pos), rfl⟩

theorem next_of_leadsAs {cs : List Char} (h : LeadsAs cs text t rest) (pos : Nat) :
    (Lexer.mk pos text).next =
      (.ok (some ⟨t, pos, pos + utf8Length cs⟩), ⟨pos + utf8Length cs, rest⟩) := by
  obtain ⟨c, left, rfl, hsplit, hread⟩ := h
  unfold next
  dsimp only
  rw [hsplit]
  dsimp only
  rw [hread]
  rfl

theorem makes_of_leadsAs {cs : List Char} (h : LeadsAs cs text t rest) (hrest : Makes rest ts) :
    Makes text (t :: ts) := by
  intro pos
  obtain ⟨placed, hplaced, rfl⟩ := hrest (pos + utf8Length cs)
  refine ⟨⟨t, pos, pos + utf8Length cs⟩ :: placed, ?_, rfl⟩
  rw [tokenize_of_token (next_of_leadsAs h pos), hplaced]
  rfl

theorem makes_cons (h : Leads text t rest) (hrest : Makes rest ts) : Makes text (t :: ts) :=
  makes_of_leadsAs h hrest

/-- A gap only moves what stands behind it. -/
theorem next_gap {gap : List Char} (h : IsGap gap) (pos : Nat) (text : List Char) :
    (Lexer.mk pos (gap ++ text)).next = (Lexer.mk (pos + utf8Length gap) text).next := by
  unfold next
  rw [Gap.split_append h]
  dsimp only
  rw [utf8Length_append, Nat.add_assoc]

theorem makes_gap {gap : List Char} (hgap : IsGap gap) (h : Makes text ts) :
    Makes (gap ++ text) ts := by
  intro pos
  obtain ⟨placed, hplaced, rfl⟩ := h (pos + utf8Length gap)
  exact ⟨placed, (tokenize_congr (next_gap hgap pos text)).trans hplaced, rfl⟩

end Lexer

/-! ### Layout -/

/-- Every point has a name behind it. -/
inductive Pointed : List Token → Prop
  | nil : Pointed []
  | cons {t : Token} {ts : List Token} : t ≠ .dot → Pointed ts → Pointed (t :: ts)
  | point {name : String} {ts : List Token} : Pointed ts → Pointed (.dot :: .identifier name :: ts)

theorem Pointed.append (h : Pointed ts) (h' : Pointed us) : Pointed (ts ++ us) := by
  induction h with
  | nil => exact h'
  | cons ht _ ih => exact .cons ht ih
  | point _ ih => exact .point ih

theorem Pointed.behind (h : Pointed (t :: ts)) : Pointed ts := by
  cases h with
  | cons _ h => exact h
  | point h => exact .cons nofun h

namespace Layout

open Lexeme (Stops isWordPart isWordStart leans)
open Lexer (Makes)

theorem stops_symbol {c : Char} (hc : c ∈ [' ', ')', ',', '(']) (cs : List Char) :
    Stops (c :: cs) := by
  have hclass : c = ' ' ∨ c = ')' ∨ c = ',' ∨ c = '(' := by simpa using hc
  rcases hclass with rfl | rfl | rfl | rfl <;>
    exact Lexeme.stops_cons (by decide) (by decide) cs

theorem stops_point {d : Char} (hd : isWordStart d = true) (cs : List Char) :
    Stops ('.' :: d :: cs) := by
  refine ⟨fun e he => ?_, by simp, by simp, by simp, fun e more h => ?_⟩
  · cases he
    decide
  · cases h
    exact Lexeme.not_isDigit_of_isWordStart hd

theorem chars_cons (t : Token) (ts : List Token) :
    ∃ left, chars (t :: ts) = t.spelling.toList ++ left := by
  cases ts with
  | nil => exact ⟨[], (List.append_nil _).symm⟩
  | cons u more =>
    exact ⟨space t u ++ chars (u :: more), by rw [chars_cons_cons, List.append_assoc]⟩

theorem unspaced (h : ¬spaced t u = true) (ht : leans t = false) :
    u = .rightParen ∨ u = .comma ∨ u = .dot ∨ u = .leftParen := by
  unfold spaced at h
  split at h <;> simp_all [leans]

theorem stops_pointed (hlexical : ∀ v ∈ Token.dot :: ts, v.IsLexical)
    (hpointed : Pointed (.dot :: ts)) (rest : List Char) :
    Stops (chars (.dot :: ts) ++ rest) := by
  cases hpointed with
  | cons hdot => exact absurd rfl hdot
  | @point name more h =>
    obtain ⟨hword, -⟩ : (Token.identifier name).IsLexical := hlexical _ (by simp)
    obtain ⟨left, hleft⟩ := chars_cons (.identifier name) more
    rw [chars_cons_cons, hleft]
    show Stops ('.' :: (name.toList ++ left ++ rest))
    revert hword
    cases name.toList with
    | nil => exact nofun
    | cons d cs =>
      intro hword
      simp only [Lexeme.isWord, List.head?_cons, Option.any_some, Bool.and_eq_true] at hword
      exact stops_point hword.1 _

/-- No token goes on with what stands behind it. -/
theorem stops_behind (ht : leans t = false) (hlexical : ∀ v ∈ u :: ts, v.IsLexical)
    (hpointed : Pointed (u :: ts)) (rest : List Char) :
    Stops (space t u ++ (chars (u :: ts) ++ rest)) := by
  by_cases hspaced : spaced t u = true
  · rw [space, if_pos hspaced]
    exact stops_symbol (by simp) _
  · rw [space, if_neg hspaced, List.nil_append]
    obtain ⟨left, hleft⟩ := chars_cons u ts
    rcases unspaced hspaced ht with rfl | rfl | rfl | rfl
    · rw [hleft]
      show Stops (')' :: (left ++ rest))
      exact stops_symbol (by simp) _
    · rw [hleft]
      show Stops (',' :: (left ++ rest))
      exact stops_symbol (by simp) _
    · exact stops_pointed hlexical hpointed rest
    · rw [hleft]
      show Stops ('(' :: (left ++ rest))
      exact stops_symbol (by simp) _

/-- The tokens of a canonical text where they stand in it, if it begins at the byte `pos`. -/
def placed (pos : Nat) : List Token → List Placed
  | [] => []
  | [t] => [⟨t, pos, pos + utf8Length t.spelling.toList⟩]
  | t :: u :: more =>
    ⟨t, pos, pos + utf8Length t.spelling.toList⟩ ::
      placed (pos + utf8Length t.spelling.toList + utf8Length (space t u)) (u :: more)

theorem map_token_placed (pos : Nat) (ts : List Token) : (placed pos ts).map (·.token) = ts := by
  fun_induction placed pos ts with
  | case1 => rfl
  | case2 => rfl
  | case3 pos t u more ih => rw [List.map_cons, ih]

theorem isGap_space (t u : Token) : Gap.IsGap (space t u) := by
  unfold space
  split
  · exact .blank (by decide) .nil
  · exact .nil

/-- The lexer finds the tokens of a canonical text at their places, in front of a text that none
of them goes on with. -/
theorem tokenize_chars_append (hlexical : ∀ t ∈ ts, t.IsLexical) (hpointed : Pointed ts)
    (hstops : Stops rest) (pos : Nat) :
    (Lexer.mk pos (chars ts ++ rest)).tokenize.1 =
      (Lexer.mk (pos + utf8Length (chars ts)) rest).tokenize.1.map (placed pos ts ++ ·) := by
  induction ts generalizing pos with
  | nil =>
    show (Lexer.mk pos rest).tokenize.1 = (Lexer.mk pos rest).tokenize.1.map ([] ++ ·)
    cases (Lexer.mk pos rest).tokenize.1 <;> rfl
  | cons t ts ih =>
    obtain ⟨ht, hts⟩ := List.forall_mem_cons.mp hlexical
    cases ts with
    | nil =>
      have hleads := Lexeme.leads_spelling ht fun _ => hstops
      exact Lexer.tokenize_of_token (Lexer.next_of_leadsAs hleads pos)
    | cons u more =>
      have hleads := Lexeme.leads_spelling ht fun hleans =>
        stops_behind hleans hts hpointed.behind rest
      have hgap := Lexer.next_gap (isGap_space t u) (pos + utf8Length t.spelling.toList)
        (chars (u :: more) ++ rest)
      rw [chars_cons_cons, List.append_assoc, List.append_assoc,
        Lexer.tokenize_of_token (Lexer.next_of_leadsAs hleads pos), Lexer.tokenize_congr hgap,
        ih hts hpointed.behind, utf8Length_append, utf8Length_append, ← Nat.add_assoc,
        ← Nat.add_assoc]
      cases (Lexer.mk (pos + utf8Length t.spelling.toList + utf8Length (space t u) +
        utf8Length (chars (u :: more))) rest).tokenize.1 <;> rfl

/-- Canonical layout makes the tokens that were laid out, in front of a text that none of them
goes on with. -/
theorem makes_chars_append (hlexical : ∀ t ∈ ts, t.IsLexical) (hpointed : Pointed ts)
    (hstops : Stops rest) (hrest : Makes rest us) : Makes (chars ts ++ rest) (ts ++ us) := by
  intro pos
  obtain ⟨behind, hbehind, rfl⟩ := hrest (pos + utf8Length (chars ts))
  refine ⟨placed pos ts ++ behind, ?_, by rw [List.map_append, map_token_placed]⟩
  rw [tokenize_chars_append hlexical hpointed hstops, hbehind]
  rfl

theorem makes_chars (hlexical : ∀ t ∈ ts, t.IsLexical) (hpointed : Pointed ts) :
    Makes (chars ts) ts := by
  have h := makes_chars_append hlexical hpointed Lexeme.stops_nil Lexer.makes_nil
  rwa [List.append_nil, List.append_nil] at h

end Layout

namespace Parser

/-- The tokens of a text are lexical. -/
theorem isLexical_ofText {text : String} {p : Parser} (h : ofText text = .ok p) :
    ∀ t ∈ p.tokens.map (·.token), t.IsLexical := by
  unfold ofText at h
  split at h
  · next tokens after htokens =>
    cases h
    exact Lexer.isLexical_tokenize (congrArg Prod.fst htokens)
  · cases h

theorem ofText_of_makes {text : String} (h : Lexer.Makes text.toList ts) :
    ∃ p, ofText text = .ok p ∧ p.tokens.map (·.token) = ts := by
  obtain ⟨placed, hplaced, htokens⟩ := h 0
  refine ⟨⟨placed, ((Lexer.ofText text).tokenize).2.pos⟩, ?_, htokens⟩
  have hstart : Lexer.ofText text = Lexer.mk 0 text.toList := rfl
  rw [← hstart] at hplaced
  unfold ofText
  split
  · next tokens after hread =>
    rw [hread] at hplaced
    cases hplaced
    rw [hread]
  · next e after hread =>
    rw [hread] at hplaced
    cases hplaced

/-- A text in canonical layout has the tokens that were laid out. -/
theorem ofText_layout (hlexical : ∀ t ∈ ts, t.IsLexical) (hpointed : Pointed ts) :
    ∃ p, ofText (Layout.text ts) = .ok p ∧ p.tokens.map (·.token) = ts := by
  refine ofText_of_makes ?_
  rw [Layout.text, String.toList_ofList]
  exact Layout.makes_chars hlexical hpointed

end Parser
end QueryCanon
