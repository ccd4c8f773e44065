/-
What a reader takes is derived by the grammar.

The main statement is `expression_sound`.  The readers of clauses and operands get their
nested expressions from a parameter, so each has a statement about any `sub` that takes
phrases only; the induction on the limit then ties them together.
-/
import QueryCanon.Proofs.Grammar.Phrase

namespace QueryCanon
namespace Grammar

open Reader

/-- The readers of nested expressions take phrases that nest at most `n` deep. -/
def Sound (n : Nat) (sub : Level → Reader Expr) : Prop :=
  ∀ ⦃level ts e rest⦄, (sub level).read ts = .done e rest →
    ∃ used, ts = used ++ rest ∧ Phrase n level used e rest

/-- What `r` takes is a phrase of the kind `s`. -/
def Takes (n : Nat) (s : Symbol) (r : Reader s.Value) : Prop :=
  ∀ ⦃ts v rest⦄, r.read ts = .done v rest → ∃ used, ts = used ++ rest ∧ Derives .longest n s used v

variable {n : Nat} {sub : Level → Reader Expr}

theorem Sound.whole (h : Sound n sub) : Takes n .expression (sub .disjunction) := by
  intro ts e rest hr
  obtain ⟨used, rfl, hd, -⟩ := h hr
  exact ⟨used, rfl, hd.expression⟩

theorem Sound.condition (h : Sound n sub) : Takes n .condition (sub .disjunction) := by
  intro ts e rest hr
  obtain ⟨used, rfl, hd, -⟩ := h hr
  exact ⟨used, rfl, hd.expression.condition⟩

/-! ### Lists and clauses -/

theorem Takes.commaList {s : Symbol} {item : Reader s.Value} (h : Takes n s item) :
    Takes n (.list s) (commaList item) := by
  intro ts vs rest hr
  induction vs generalizing ts with
  | nil => obtain ⟨v, mid, -, ⟨-, hv, -⟩ | ⟨us, vs', -, -, hv⟩⟩ := commaList_done.mp hr <;> cases hv
  | cons v vs ih =>
    obtain ⟨v', mid, hread, ⟨-, hv, rfl⟩ | ⟨us, vs', rfl, hmore, hv⟩⟩ := commaList_done.mp hr
    · cases hv
      obtain ⟨used, rfl, hd⟩ := h hread
      exact ⟨used, rfl, hd.one⟩
    · cases hv
      obtain ⟨used, hu, hd⟩ := h hread
      obtain ⟨used', rfl, hd'⟩ := ih hmore
      exact ⟨used ++ .comma :: used', by simp [hu], hd.more hd'⟩

theorem Takes.introduced {s : Symbol} {r : Reader s.Value} (h : Takes n s r) (k : Keyword) :
    Takes n (.clause k s) (introduced k r) := by
  intro ts o rest hr
  obtain ⟨us, v, rfl, hread, rfl⟩ | ⟨-, rfl, rfl⟩ := introduced_done.mp hr
  · obtain ⟨used, rfl, hd⟩ := h hread
    exact ⟨.keyword k :: used, rfl, hd.present⟩
  · exact ⟨[], rfl, .absent⟩

/-- What stands between parentheses, with them. -/
theorem Takes.enclosed {s : Symbol} {r : Reader s.Value} (h : Takes n s r) {ts rest : List Token}
    {v : s.Value} (hr : r.read ts = .done v (.rightParen :: rest)) :
    ∃ used, .leftParen :: ts = enclose used ++ rest ∧ Derives .longest n s used v := by
  obtain ⟨used, rfl, hd⟩ := h hr
  exact ⟨used, by simp [enclose], hd⟩

theorem selectItem_takes (h : Sound n sub) : Takes n .item (selectItem sub) := by
  intro ts item rest hr
  unfold selectItem at hr
  simp only [↓accept_bind_done, bind_done, if_true, Bool.false_eq_true, if_false, read_pure,
    Outcome.done.injEq] at hr
  obtain ⟨us, rfl, _, _, ⟨rfl, rfl⟩, o, mid, hl, rfl, rfl⟩ |
    ⟨-, e, mid, he, o, mid', hl, rfl, rfl⟩ := hr
  · obtain ⟨rfl, -⟩ := label_done.mp hl
    exact ⟨.star :: optionalName o, rfl, .star⟩
  · obtain ⟨used, rfl, hd⟩ := h.whole he
    obtain ⟨rfl, -⟩ := label_done.mp hl
    exact ⟨used ++ optionalName o, by simp, hd.item⟩

/-! ### Sources -/

theorem outerJoin_done {long short kind : JoinKind} {ts rest : List Token}
    (h : (outerJoin long short).read ts = .done kind rest) :
    (kind = long ∧ ts = .keyword .OUTER :: .keyword .JOIN :: rest) ∨
      (kind = short ∧ ts = .keyword .JOIN :: rest) := by
  unfold outerJoin at h
  simp only [↓accept_bind_done, bind_done, expectKeyword_done, if_true, Bool.false_eq_true, if_false,
    read_pure, Outcome.done.injEq] at h
  obtain ⟨us, rfl, _, _, rfl, rfl, rfl⟩ | ⟨-, _, _, rfl, rfl, rfl⟩ := h
  · exact .inl ⟨rfl, rfl⟩
  · exact .inr ⟨rfl, rfl⟩

theorem joinKind_done {t : Token} {r : Reader JoinKind} {kind : JoinKind} {ts rest : List Token}
    (hk : joinKind t = some r) (h : r.read ts = .done kind rest) :
    ∃ words, t :: ts = words ++ rest ∧ Introduces kind words := by
  unfold joinKind at hk
  split at hk
  case h_8 => cases hk
  all_goals cases hk
  · cases h
    exact ⟨_, rfl, .comma⟩
  · cases h
    exact ⟨_, rfl, .plain⟩
  · simp only [bind_done, expectKeyword_done, read_pure, Outcome.done.injEq] at h
    obtain ⟨_, _, rfl, rfl, rfl⟩ := h
    exact ⟨_, rfl, .spelled .inner⟩
  · obtain ⟨rfl, rfl⟩ | ⟨rfl, rfl⟩ := outerJoin_done h
    · exact ⟨_, rfl, .spelled .leftOuter⟩
    · exact ⟨_, rfl, .spelled .left⟩
  · obtain ⟨rfl, rfl⟩ | ⟨rfl, rfl⟩ := outerJoin_done h
    · exact ⟨_, rfl, .spelled .rightOuter⟩
    · exact ⟨_, rfl, .spelled .right⟩
  · obtain ⟨rfl, rfl⟩ | ⟨rfl, rfl⟩ := outerJoin_done h
    · exact ⟨_, rfl, .spelled .fullOuter⟩
    · exact ⟨_, rfl, .spelled .full⟩
  · simp only [bind_done, expectKeyword_done, read_pure, Outcome.done.injEq] at h
    obtain ⟨_, _, rfl, rfl, rfl⟩ := h
    exact ⟨_, rfl, .spelled .cross⟩

theorem joinCondition_takes (h : Sound n sub) {kind : JoinKind} (hk : kind ≠ .cross)
    {ts rest : List Token} {c : JoinCondition} (hr : (joinCondition sub).read ts = .done c rest) :
    ∃ used, ts = used ++ rest ∧ Derives .longest n (.link kind) used (some c) := by
  unfold joinCondition at hr
  simp only [↓accept_bind_done, if_true, Bool.false_eq_true, if_false, bind_pure_comp, map_done,
    inParens_done, fail_not_done, and_false, or_false] at hr
  obtain ⟨us, rfl, e, he, rfl⟩ | ⟨-, us, rfl, names, ⟨vs, rfl, hnames⟩, rfl⟩ := hr
  · obtain ⟨used, rfl, hd⟩ := h.whole he
    exact ⟨.keyword .ON :: used, rfl, hd.test hk⟩
  · obtain ⟨hne, rfl⟩ := of_commaList_done (f := fun x => [.identifier x])
      (fun hx => identifier_done.mp hx) hnames
    obtain ⟨name, names, rfl⟩ := List.exists_cons_of_ne_nil hne
    exact ⟨_, by simp [enclose], .columns hk⟩

theorem conditionOf_takes (h : Sound n sub) (kind : JoinKind) :
    Takes n (.link kind) (conditionOf sub kind) := by
  intro ts o rest hr
  by_cases hk : kind = .cross
  · subst hk
    cases hr
    exact ⟨[], rfl, .unconditional⟩
  · have hread : (some <$> joinCondition sub).read ts = .done o rest := by
      cases kind with
      | cross => exact absurd rfl hk
      | _ => simpa [conditionOf] using hr
    obtain ⟨c, hc, rfl⟩ := map_done.mp hread
    exact joinCondition_takes h hk hc

/-- A join is put behind whatever source was read before it. -/
theorem joined_done (h : Sound n sub) {t : Token} {r : Reader (Source → Source)}
    {f : Source → Source} {ts rest : List Token}
    (hj : joined sub t = some r) (hr : r.read ts = .done f rest) :
    ∃ used, t :: ts = used ++ rest ∧ ∀ before left, Derives .longest n .source before left →
      Derives .longest n .source (before ++ used) (f left) := by
  obtain ⟨kindReader, hk, rfl⟩ := Option.map_eq_some_iff.mp hj
  simp only [bind_done, read_pure, Outcome.done.injEq] at hr
  obtain ⟨kind, mid, hkind, right, mid', hright, o, mid'', ho, rfl, rfl⟩ := hr
  obtain ⟨words, hwords, hi⟩ := joinKind_done hk hkind
  obtain ⟨rfl, -, -⟩ := tableRef_done.mp hright
  obtain ⟨used, rfl, hd⟩ := conditionOf_takes h kind ho
  exact ⟨words ++ (right.tokens ++ used), by simp [hwords], fun before left hl => hl.join hi hd⟩

theorem source_takes (h : Sound n sub) : Takes n .source (source sub) := by
  intro ts s rest hr
  unfold source at hr
  simp only [bind_done, read_pure, Outcome.done.injEq] at hr
  obtain ⟨first, mid, hfirst, joins, mid', hjoins, rfl, rfl⟩ := hr
  obtain ⟨rfl, -, -⟩ := tableRef_done.mp hfirst
  -- The joins already read make up the source that the next one is put behind.
  have hrest : ∀ before left, Derives .longest n .source before left →
      ∃ used, mid = used ++ mid' ∧ Derives .longest n .source (before ++ used)
        (joins.foldl (fun left join => join left) left) := by
    refine repeated_done_induction (P := fun ts joins rest => ∀ before left,
      Derives .longest n .source before left → ∃ used, ts = used ++ rest ∧
        Derives .longest n .source (before ++ used)
          (joins.foldl (fun left join => join left) left)) ?_ ?_ hjoins
    · intro ts _ before left hl
      exact ⟨[], rfl, by simpa using hl⟩
    · intro t us r f mid fs rest hj hread ih before left hl
      obtain ⟨used, hu, hstep⟩ := joined_done h hj hread
      obtain ⟨used', rfl, hd⟩ := ih (before ++ used) (f left) (hstep before left hl)
      exact ⟨used ++ used', by simp [hu], by simpa using hd⟩
  obtain ⟨used, rfl, hd⟩ := hrest _ _ .table
  exact ⟨first.tokens ++ used, by simp, hd⟩

/-! ### Queries -/

theorem scope_done {o : Option String} {ts rest : List Token}
    (h : scope.read ts = .done o rest) : ts = scopeTokens o ++ rest := by
  unfold scope at h
  simp only [↓accept_pair_bind_done, if_true, Bool.false_eq_true, if_false, bind_pure_comp, map_done,
    identifier_done, read_pure, Outcome.done.injEq] at h
  obtain ⟨us, rfl, name, rfl, rfl⟩ | ⟨-, rfl, rfl⟩ := h
  · rfl
  · rfl

theorem limit_done {wanted : Wanted} {o : Option String} {ts rest : List Token}
    (h : (introduced .LIMIT (integer wanted)).read ts = .done o rest) :
    ts = limitTokens o ++ rest := by
  obtain ⟨us, text, rfl, htext, rfl⟩ | ⟨-, rfl, rfl⟩ := introduced_done.mp h
  · rw [integer_done.mp htext]
    rfl
  · rfl

/-- A query behind its `SELECT`. -/
theorem queryBody_takes (h : Sound n sub) {ts rest : List Token} {q : Query}
    (hr : (queryBody sub).read ts = .done q rest) :
    ∃ used, ts = used ++ rest ∧ Derives .longest n .query (.keyword .SELECT :: used) q := by
  simp only [queryBody, bind_done, read_pure, Outcome.done.injEq] at hr
  obtain ⟨items, t₁, hitems, source, t₂, hsource, scope, t₃, hscope, filter, t₄, hfilter, groups, t₅,
    hgroups, groupFilter, t₆, hgroupFilter, order, t₇, horder, limit, t₈, hlimit, rfl, rfl⟩ := hr
  obtain ⟨us₁, rfl, d₁⟩ := (selectItem_takes h).commaList hitems
  obtain ⟨us₂, rfl, d₂⟩ := (source_takes h).introduced .FROM hsource
  obtain rfl := scope_done hscope
  obtain ⟨us₃, rfl, d₃⟩ := h.condition.introduced .WHERE hfilter
  obtain rfl := of_listBy_done (fun hc => (columnRef_done.mp hc).1) hgroups
  obtain ⟨us₄, rfl, d₄⟩ := h.condition.introduced .HAVING hgroupFilter
  obtain rfl := of_listBy_done orderItem_done horder
  obtain rfl := limit_done hlimit
  exact ⟨_, by simp only [List.append_assoc], d₁.query d₂ d₃ d₄⟩

theorem query_takes (h : Sound n sub) : Takes n .query (query sub) := by
  intro ts q rest hr
  simp only [query, bind_done, expectKeyword_done] at hr
  obtain ⟨_, us, rfl, hbody⟩ := hr
  obtain ⟨used, rfl, hd⟩ := queryBody_takes h hbody
  exact ⟨.keyword .SELECT :: used, rfl, hd⟩

/-! ### Tails -/

/-- What `r` makes of a left operand is that operand with a tail, the one that `t` and the
tokens taken are. -/
def TakesTail (n : Nat) (t : Token) (r : Reader (Expr → Expr)) : Prop :=
  ∀ ⦃ts f rest⦄, r.read ts = .done f rest →
    ∃ used ending tail, ts = used ++ rest ∧
      Derives .longest (n + 1) (.tail ending) (t :: used) tail ∧
      (ending = .ajar → Clear beginsComparison rest) ∧ f = fun left => tail.apply left

theorem compareTail_takes (h : Sound n sub) (op : Comparison) :
    TakesTail n op.token (compareTail sub op) := by
  intro ts f rest hr
  simp only [compareTail, bind_pure_comp, map_done] at hr
  obtain ⟨right, hright, rfl⟩ := hr
  obtain ⟨used, rfl, ending, hd, hclear⟩ := h hright
  exact ⟨used, ending, .compare op right, rfl, hd.compare, hclear, rfl⟩

theorem nullTail_takes : TakesTail n (.keyword .IS) nullTail := by
  intro ts f rest hr
  unfold nullTail at hr
  simp only [↓accept_bind_done, bind_done, expectKeyword_done, read_pure, Outcome.done.injEq] at hr
  obtain ⟨us, rfl, _, _, rfl, rfl, rfl⟩ | ⟨-, _, _, rfl, rfl, rfl⟩ := hr
  · exact ⟨[.keyword .NOT, .keyword .NULL], .closed, .isNull true, rfl, .isNull true,
      by simp, rfl⟩
  · exact ⟨[.keyword .NULL], .closed, .isNull false, rfl, .isNull false, by simp, rfl⟩

/-- A predicate, with the `NOT` before it if there is one. -/
theorem predicateTail_done (h : Sound n sub) {negated : Bool} {t : Token}
    {r : Reader (Expr → Expr)} (ht : predicateTail sub negated t = some r)
    {ts rest : List Token} {f : Expr → Expr} (hr : r.read ts = .done f rest) :
    ∃ used ending tail, ts = used ++ rest ∧
      Derives .longest (n + 1) (.tail ending) (notTokens negated ++ t :: used) tail ∧
      (ending = .ajar → Clear beginsComparison rest) ∧ f = fun left => tail.apply left := by
  unfold predicateTail at ht
  split at ht
  case h_4 => cases ht
  all_goals cases ht
  · unfold inTail at hr
    obtain ⟨us, rfl, hin⟩ := inParens_done.mp hr
    simp only [↓accept_bind_done, if_true, Bool.false_eq_true, if_false, bind_pure_comp,
      map_done] at hin
    obtain ⟨vs, rfl, q, hq, rfl⟩ | ⟨-, list, hlist, rfl⟩ := hin
    · obtain ⟨used, rfl, hd⟩ := queryBody_takes h hq
      exact ⟨enclose (.keyword .SELECT :: used), .closed, .inQuery q negated, by simp [enclose],
        hd.inQuery, by simp, rfl⟩
    · obtain ⟨used, rfl, hd⟩ := h.whole.commaList hlist
      exact ⟨enclose used, .closed, .inList list negated, by simp [enclose], hd.inList, by simp,
        rfl⟩
  · simp only [betweenTail, bind_done, expectKeyword_done, bind_pure_comp, map_done] at hr
    obtain ⟨low, _, hlow, _, mid, rfl, high, hhigh, rfl⟩ := hr
    obtain ⟨us, rfl, ending, dl, -⟩ := h hlow
    obtain ⟨vs, rfl, ending', dh, hclear⟩ := h hhigh
    exact ⟨us ++ .keyword .AND :: vs, ending', .between low high negated, by simp, dl.between dh,
      hclear, rfl⟩
  · simp only [likeTail, bind_pure_comp, map_done] at hr
    obtain ⟨pattern, hpattern, rfl⟩ := hr
    obtain ⟨us, rfl, ending, hd, hclear⟩ := h hpattern
    exact ⟨us, ending, .like pattern negated, rfl, hd.like, hclear, rfl⟩

theorem comparison?_eq_some {t : Token} {op : Comparison} (h : comparison? t = some op) :
    t = op.token := by
  unfold comparison? at h
  split at h <;> cases h <;> rfl

theorem comparisonTail_takes (h : Sound n sub) {t : Token} {r : Reader (Expr → Expr)}
    (ht : comparisonTail sub t = some r) : TakesTail n t r := by
  unfold comparisonTail at ht
  split at ht
  · cases ht
    exact nullTail_takes
  · cases ht
    intro ts f rest hr
    obtain ⟨t, us, r, rfl, hp, hread⟩ := dispatch_done.mp hr
    obtain ⟨used, ending, tail, rfl, hd, hclear, rfl⟩ := predicateTail_done h hp hread
    exact ⟨t :: used, ending, tail, rfl, hd, hclear, rfl⟩
  · split at ht
    · next op hop =>
      cases ht
      rw [comparison?_eq_some hop]
      exact compareTail_takes h op
    · intro ts f rest hr
      exact predicateTail_done h ht hr

/-! ### Operands -/

theorem arguments_takes (h : Sound n sub) {ts rest : List Token} {args : List Expr}
    (hr : (arguments sub).read ts = .done args rest) :
    ∃ used, .leftParen :: ts = enclose used ++ rest ∧ Derives .longest n .arguments used args := by
  unfold arguments at hr
  simp only [↓accept_bind_done, if_true, Bool.false_eq_true, if_false, enclosed_done, read_pure,
    Outcome.done.injEq] at hr
  obtain ⟨us, rfl, rfl, rfl⟩ | ⟨-, ⟨us, rfl, rfl, rfl⟩ | ⟨-, hlist⟩⟩ := hr
  · exact ⟨[], rfl, .noArguments⟩
  · exact ⟨[.star], rfl, .starArgument⟩
  · obtain ⟨used, rfl, hd⟩ := h.whole.commaList hlist
    exact ⟨used, by simp [enclose], hd.arguments⟩

theorem rowTest_takes (h : Sound n sub) {negated : Bool} {ts rest : List Token} {e : Expr}
    (hr : (rowTest sub negated).read ts = .done e rest) :
    ∃ used q, ts = enclose used ++ rest ∧ Derives .longest n .query used q ∧
      e = .hasRows q negated := by
  simp only [rowTest, bind_pure_comp, map_done, inParens_done] at hr
  obtain ⟨q, ⟨us, rfl, hq⟩, rfl⟩ := hr
  obtain ⟨used, hu, hd⟩ := (query_takes h).enclosed hq
  exact ⟨used, q, hu, hd, rfl⟩

theorem negation_takes (h : Sound n sub) {ts rest : List Token} {e : Expr}
    (hr : (negation sub).read ts = .done e rest) :
    ∃ used, ts = used ++ rest ∧ Phrase (n + 1) .operand (.keyword .NOT :: used) e rest := by
  unfold negation at hr
  simp only [↓accept_bind_done, if_true, Bool.false_eq_true, if_false, bind_pure_comp,
    map_done] at hr
  obtain ⟨us, rfl, htest⟩ | ⟨hexists, e, he, rfl⟩ := hr
  · obtain ⟨used, q, rfl, hd, rfl⟩ := rowTest_takes h htest
    exact ⟨.keyword .EXISTS :: enclose used, rfl, .closed, hd.hasNoRows, by simp⟩
  · obtain ⟨used, rfl, ⟨ending, hd⟩, hclear⟩ := h he
    refine ⟨used, rfl, .ajar, hd.not fun _ => ?_, fun _ => hclear⟩
    cases used with
    | nil => simp
    | cons t ts => simpa using hexists

theorem parenthesis_takes (h : Sound n sub) {ts rest : List Token} {e : Expr}
    (hr : (parenthesis sub).read ts = .done e rest) :
    ∃ used, ts = used ++ rest ∧
      Derives .longest (n + 1) (.operand .closed) (.leftParen :: used) e := by
  unfold parenthesis at hr
  rw [enclosed_done] at hr
  simp only [↓accept_bind_done, if_true, Bool.false_eq_true, if_false, bind_pure_comp,
    map_done] at hr
  obtain ⟨us, rfl, q, hq, rfl⟩ | ⟨-, e, he, rfl⟩ := hr
  · obtain ⟨used, rfl, hd⟩ := queryBody_takes h hq
    have hsubquery : Derives .longest (n + 1) (.operand .closed)
        (.leftParen :: .keyword .SELECT :: (used ++ [.rightParen])) (.subquery q) := hd.subquery
    exact ⟨.keyword .SELECT :: (used ++ [.rightParen]), by simp, hsubquery⟩
  · obtain ⟨used, rfl, hd⟩ := h.whole he
    have hparen : Derives .longest (n + 1) (.operand .closed)
        (.leftParen :: (used ++ [.rightParen])) (.paren e) := hd.paren
    exact ⟨used ++ [.rightParen], by simp, hparen⟩

theorem named_takes (h : Sound n sub) {name : String} {ts rest : List Token} {e : Expr}
    (hr : (named sub name).read ts = .done e rest) :
    ∃ used, ts = used ++ rest ∧
      Derives .longest (n + 1) (.operand .closed) (.identifier name :: used) e := by
  unfold named at hr
  simp only [↓accept_bind_done, if_true, Bool.false_eq_true, if_false, bind_pure_comp, map_done,
    identifier_done, read_pure, Outcome.done.injEq] at hr
  obtain ⟨us, rfl, args, hargs, rfl⟩ | ⟨-, ⟨us, rfl, x, rfl, rfl⟩ | ⟨-, rfl, rfl⟩⟩ := hr
  · obtain ⟨used, hu, hd⟩ := arguments_takes h hargs
    exact ⟨enclose used, hu, hd.call⟩
  · exact ⟨[.dot, .identifier x], rfl, .column (c := ⟨some name, x⟩)⟩
  · exact ⟨[], rfl, .column (c := ⟨none, name⟩)⟩

theorem operand_takes (h : Sound n sub) {t : Token} {r : Reader Expr} (ht : operand sub t = some r)
    {ts rest : List Token} {e : Expr} (hr : r.read ts = .done e rest) :
    ∃ used, ts = used ++ rest ∧ Phrase (n + 1) .operand (t :: used) e rest := by
  unfold operand at ht
  split at ht
  case h_10 => cases ht
  case h_6 =>
    cases ht
    exact negation_takes h hr
  case h_7 =>
    cases ht
    obtain ⟨used, q, rfl, hd, rfl⟩ := rowTest_takes h hr
    exact ⟨enclose used, rfl, .closed, hd.hasRows, nofun⟩
  case h_8 =>
    cases ht
    obtain ⟨used, rfl, hd⟩ := parenthesis_takes h hr
    exact ⟨used, rfl, .closed, hd, nofun⟩
  case h_9 =>
    cases ht
    obtain ⟨used, rfl, hd⟩ := named_takes h hr
    exact ⟨used, rfl, .closed, hd, nofun⟩
  all_goals
    cases ht
    cases hr
    exact ⟨[], rfl, .closed, .literal (by constructor), nofun⟩

/-! ### Operands with their tails -/

/-- What an expression of a level has come to when `next` is still to be read.  Behind the
operand of a `NOT`, of an `AND` or of an `OR` nothing comes that this operand would have
taken. -/
inductive Progress (n : Nat) (level : Level) (used : List Token) (e : Expr)
    (next : List Token) : Prop
  | comparison (ending : Ending) (h : Derives .longest n (.comparison ending) used e)
    (hclear : ending = .ajar → Clear beginsComparison next)
  | conjunction (hlevel : level = .conjunction ∨ level = .disjunction)
    (h : Derives .longest n .conjunction used e) (hclear : Clear (beginsTail .comparison) next)
  | disjunction (hlevel : level = .disjunction)
    (h : Derives .longest n .disjunction used e) (hclear : Clear (beginsTail .conjunction) next)

variable {level : Level} {t : Token} {r : Reader (Expr → Expr)} {used us rest : List Token}
  {e : Expr} {f : Expr → Expr}

theorem Progress.comparisonTail (h : Sound n sub) (hp : Progress (n + 1) level used e (t :: us))
    (ht : comparisonTail sub t = some r) (hr : r.read us = .done f rest) :
    ∃ more, t :: us = more ++ rest ∧ Progress (n + 1) level (used ++ more) (f e) rest := by
  have hbegins : beginsComparison t = true := by
    rw [← isSome_comparisonTail sub t, ht]
    rfl
  obtain ⟨more, ending, tail, rfl, hd, hclear, rfl⟩ := comparisonTail_takes h ht hr
  refine ⟨t :: more, rfl, ?_⟩
  cases hp with
  | comparison ending' hl hclear' =>
    have hclosed : ending' = .closed := by
      cases ending' with
      | closed => rfl
      | ajar => simp [hbegins] at hclear'
    exact .comparison ending (hl.tail (fun _ => hclosed) hd) hclear
  | conjunction _ _ hclear' => simp [beginsTail, hbegins] at hclear'
  | disjunction _ _ hclear' => simp [beginsTail, hbegins] at hclear'

theorem Progress.andTail (h : Sound n sub) (hp : Progress (n + 1) level used e (t :: us))
    (hlevel : level = .conjunction ∨ level = .disjunction)
    (ht : andTail sub t = some r) (hr : r.read us = .done f rest) :
    ∃ more, t :: us = more ++ rest ∧ Progress (n + 1) level (used ++ more) (f e) rest := by
  unfold Grammar.andTail at ht
  split at ht
  case h_2 => cases ht
  cases ht
  simp only [bind_pure_comp, map_done] at hr
  obtain ⟨right, hright, rfl⟩ := hr
  obtain ⟨more, rfl, ⟨ending, hd⟩, hclear⟩ := h hright
  refine ⟨.keyword .AND :: more, rfl, ?_⟩
  cases hp with
  | comparison ending' hl _ => exact .conjunction hlevel (hl.comparison.and hd) hclear
  | conjunction _ hl _ => exact .conjunction hlevel (hl.and hd) hclear
  | disjunction _ _ hclear' => simp [beginsTail] at hclear'

theorem Progress.orTail (h : Sound n sub) (hp : Progress (n + 1) level used e (t :: us))
    (hlevel : level = .disjunction)
    (ht : orTail sub t = some r) (hr : r.read us = .done f rest) :
    ∃ more, t :: us = more ++ rest ∧ Progress (n + 1) level (used ++ more) (f e) rest := by
  unfold Grammar.orTail at ht
  split at ht
  case h_2 => cases ht
  cases ht
  simp only [bind_pure_comp, map_done] at hr
  obtain ⟨right, hright, rfl⟩ := hr
  obtain ⟨more, rfl, hd, hclear⟩ := h hright
  refine ⟨.keyword .OR :: more, rfl, ?_⟩
  cases hp with
  | comparison _ hl _ => exact .disjunction hlevel (hl.comparison.conjunction.or hd) hclear
  | conjunction _ hl _ => exact .disjunction hlevel (hl.conjunction.or hd) hclear
  | disjunction _ hl _ => exact .disjunction hlevel (hl.or hd) hclear

/-- One tail more is progress. -/
theorem Progress.tail (h : Sound n sub) (hp : Progress (n + 1) level used e (t :: us))
    (ht : tail sub level t = some r) (hr : r.read us = .done f rest) :
    ∃ more, t :: us = more ++ rest ∧ Progress (n + 1) level (used ++ more) (f e) rest := by
  cases level with
  | operand => cases ht
  | comparison => exact hp.comparisonTail h ht hr
  | conjunction =>
    rcases Option.or_eq_some_iff.mp ht with ht | ⟨-, ht⟩
    · exact hp.andTail h (.inl rfl) ht hr
    · exact hp.comparisonTail h ht hr
  | disjunction =>
    rcases Option.or_eq_some_iff.mp ht with ht | ⟨-, ht⟩
    · exact hp.orTail h rfl ht hr
    · rcases Option.or_eq_some_iff.mp ht with ht | ⟨-, ht⟩
      · exact hp.andTail h (.inr rfl) ht hr
      · exact hp.comparisonTail h ht hr

/-- All tails are progress, and nothing is left that the level would go on with. -/
theorem Progress.tails (h : Sound n sub) {ts : List Token} {fs : List (Expr → Expr)}
    (hp : Progress (n + 1) level used e ts)
    (hr : (repeated (Grammar.tail sub level)).read ts = .done fs rest) :
    ∃ more, ts = more ++ rest ∧
      Progress (n + 1) level (used ++ more) (fs.foldl (fun left tail => tail left) e) rest ∧
      Clear (beginsTail level) rest := by
  refine repeated_done_induction (P := fun ts fs rest => ∀ used e,
    Progress (n + 1) level used e ts →
    ∃ more, ts = more ++ rest ∧
      Progress (n + 1) level (used ++ more) (fs.foldl (fun left tail => tail left) e) rest ∧
      Clear (beginsTail level) rest) ?_ ?_ hr used e hp
  · intro ts hclear used e hp
    have hclass : (fun t => (Grammar.tail sub level t).isSome) = beginsTail level :=
      funext (isSome_tail sub level)
    rw [hclass] at hclear
    exact ⟨[], rfl, by simpa using hp, hclear⟩
  · intro t us r f mid fs rest ht hread ih used e hp
    obtain ⟨more, hmore, hp'⟩ := hp.tail h ht hread
    obtain ⟨more', rfl, hp'', hclear⟩ := ih _ _ hp'
    exact ⟨more ++ more', by simp [hmore], by simpa using hp'', hclear⟩

theorem Progress.phrase (hp : Progress n level used e rest) (hlevel : level ≠ .operand)
    (hclear : Clear (beginsTail level) rest) : Phrase n level used e rest := by
  cases level with
  | operand => exact absurd rfl hlevel
  | comparison =>
    cases hp with
    | comparison ending h _ => exact ⟨⟨ending, h⟩, hclear⟩
    | conjunction hl => simp at hl
    | disjunction hl => cases hl
  | conjunction =>
    cases hp with
    | comparison _ h _ => exact ⟨h.comparison, hclear⟩
    | conjunction _ h _ => exact ⟨h, hclear⟩
    | disjunction hl => cases hl
  | disjunction =>
    cases hp with
    | comparison _ h _ => exact ⟨h.comparison.conjunction, hclear⟩
    | conjunction _ h _ => exact ⟨h.conjunction, hclear⟩
    | disjunction _ h _ => exact ⟨h, hclear⟩

theorem operandAndTails_takes (h : Sound n sub) {ts : List Token}
    (hr : (operandAndTails sub level).read ts = .done e rest) :
    ∃ used, ts = used ++ rest ∧ Phrase (n + 1) level used e rest := by
  simp only [operandAndTails, bind_done, dispatch_done, read_pure, Outcome.done.injEq] at hr
  obtain ⟨first, mid, ⟨t, us, r, rfl, ht, hread⟩, tails, mid', htails, rfl, rfl⟩ := hr
  obtain ⟨used, rfl, ending, hd, hclear⟩ := operand_takes h ht hread
  by_cases hlevel : level = .operand
  · subst hlevel
    have hnone : Clear (fun t => (tail sub .operand t).isSome) mid := fun _ _ => rfl
    rw [repeated_of_clear hnone] at htails
    cases htails
    exact ⟨t :: used, rfl, ending, hd, hclear⟩
  · have hp : Progress (n + 1) level (t :: used) first mid := .comparison ending hd.operand hclear
    obtain ⟨more, rfl, hp', hclear'⟩ := hp.tails h htails
    exact ⟨t :: used ++ more, by simp, hp'.phrase hlevel hclear'⟩

/-- What an expression is read from is a phrase of its level. -/
theorem expression_sound (n : Nat) : Sound n (expression n) := by
  induction n with
  | zero => exact fun level ts e rest hr => absurd hr fail_not_done
  | succ n ih => exact fun level ts e rest hr => operandAndTails_takes ih hr

/-- What a query is read from is a query of the grammar. -/
theorem statement_sound (n : Nat) : Takes n .query (statement n) :=
  query_takes (expression_sound n)

end Grammar
end QueryCanon
