/-
A `NOT` before a predicate, and the same `NOT` inside it.

`NOT` takes a whole comparison for its operand, with all the tails that follow, and of these the
last takes the negation up.  So as long as no `NOT` inside the comparison reaches up to its end,
the two places of the word make no difference to the tree, nor to the tree of anything that the
predicate stands in.
-/
import QueryCanon.Proofs.Grammar.Acceptance
import QueryCanon.Proofs.Grammar.Balance
import QueryCanon.Proofs.Grammar.Exchange
import QueryCanon.Proofs.Grammar.Spelling

namespace QueryCanon
namespace Grammar

open Reader

variable {n m : Nat} {ts us : List Token} {e : Expr}

/-! ### Where a `NOT` may reach the end -/

/-- A `NOT` stands in `ts` outside all parentheses and before an operand; that of a negated
predicate stands before the word of the predicate. -/
def PrefixNot (ts : List Token) : Prop :=
  ∃ i < ts.length, ts[i]? = some (.keyword .NOT) ∧ Balanced (ts.take i) ∧
    ∀ k ∈ [Keyword.IN, .BETWEEN, .LIKE, .NULL], ts[i + 1]? ≠ some (.keyword k)

instance (ts : List Token) : Decidable (PrefixNot ts) :=
  inferInstanceAs (Decidable (∃ i < ts.length, _))

theorem PrefixNot.behind (h : PrefixNot ts) (hus : Balanced us) : PrefixNot (us ++ ts) := by
  obtain ⟨i, hi, hnot, hbefore, hnext⟩ := h
  refine ⟨us.length + i, by simpa using hi, ?_, ?_, fun k hk => ?_⟩
  · rw [List.getElem?_append_right (Nat.le_add_right _ _), Nat.add_sub_cancel_left]
    exact hnot
  · rw [List.take_length_add_append]
    exact hus.append hbefore
  · rw [Nat.add_assoc, List.getElem?_append_right (Nat.le_add_right _ _), Nat.add_sub_cancel_left]
    exact hnext k hk

theorem PrefixNot.first
    (h : ∀ k ∈ [Keyword.IN, .BETWEEN, .LIKE, .NULL], ts.head? ≠ some (.keyword k)) :
    PrefixNot (.keyword .NOT :: ts) := by
  refine ⟨0, Nat.zero_lt_succ _, rfl, .nil, fun k hk => ?_⟩
  rw [List.getElem?_cons_succ, ← List.head?_eq_getElem?]
  exact h k hk

/-- A comparison begins with a token that begins an operand. -/
theorem Derives.begins {ending : Ending} (h : Derives .longest n (.comparison ending) ts e) :
    ∃ t us, ts = t :: us ∧ beginsOperand t = true := by
  have hread := h.comparison.conjunction.expression.completes [] (clear_nil _)
  rw [List.append_nil] at hread
  exact begins_of_expression_done hread

/-- How a phrase ends, where its kind says so. -/
def Symbol.ending? : Symbol → Option Ending
  | comparison ending => some ending
  | operand ending => some ending
  | tail ending => some ending
  | _ => none

/-- A phrase that ends in the operand of a `NOT` has that `NOT` outside parentheses. -/
theorem Derives.prefixNot {s : Symbol} {v : s.Value} (h : Derives .longest n s ts v)
    (hs : s.ending? = some .ajar) : PrefixNot ts := by
  induction h with
  | operand _ ih => exact ih hs
  | tail hl _ _ _ ih => exact (ih hs).behind hl.sealed.balanced
  | @compare _ _ op _ _ _ ih =>
    have hop : Sealed [op.token] := .token (by cases op <;> rfl)
    exact (ih hs).behind hop.balanced
  | @between _ _ _ negated us _ _ _ hlow _ _ ih =>
    have hbefore : Sealed (notTokens negated ++ .keyword .BETWEEN :: (us ++ [.keyword .AND])) :=
      .negated negated .BETWEEN (hlow.sealed.append (.word .AND .nil))
    simpa using (ih hs).behind hbefore.balanced
  | @like _ _ negated us _ _ ih =>
    have hbefore : Sealed (notTokens negated ++ [.keyword .LIKE]) := .negated negated .LIKE .nil
    simpa using (ih hs).behind hbefore.balanced
  | not hd _ _ =>
    have hwords : ∀ k ∈ [Keyword.IN, .BETWEEN, .LIKE, .NULL],
        beginsOperand (.keyword k) = false := by decide
    obtain ⟨t, us, rfl, ht⟩ := hd.begins
    refine .first fun k hk => ?_
    rintro ⟨⟩
    rw [hwords k hk] at ht
    cases ht
  | _ => cases hs

/-! ### The parts of a negated predicate -/

/-- An expression that a predicate behind it is all about, with a `NOT` before the two or without
one: outside its parentheses there is no `AND`, no `OR` and no `NOT` of an operand, and it does
not begin with an `EXISTS`, which the `NOT` would belong to. -/
structure Negatable (ts : List Token) : Prop where
  read : ∃ e, (uncapped wholeExpression).read ts = .done e [] ∧ e.isConnective = false
  noRowTest : ts.head? ≠ some (.keyword .EXISTS)
  noPrefix : ¬ PrefixNot ts

/-- An operand that is not a `NOT` with its own. -/
structure IsPrimary (ts : List Token) : Prop where
  read : Accepts (fun n => expression n .operand) ts
  unnegated : ts.head? ≠ some (.keyword .NOT)

/-- Without an `AND` or an `OR` outside it an expression is a comparison. -/
theorem Derives.comparison_of_expression (h : Derives .longest n .expression ts e)
    (he : e.isConnective = false) : ∃ ending, Derives .longest n (.comparison ending) ts e := by
  cases h with
  | expression h =>
    cases h with
    | or => cases he
    | conjunction h =>
      cases h with
      | and => cases he
      | comparison h => exact ⟨_, h⟩

theorem Negatable.derives (h : Negatable ts) :
    ∃ n e, Derives .longest n (.comparison .closed) ts e := by
  obtain ⟨e, hread, he⟩ := h.read
  obtain ⟨ending, hd⟩ := (wholeExpression_done_iff.mp hread).2.comparison_of_expression he
  cases ending with
  | closed => exact ⟨_, e, hd⟩
  | ajar => exact absurd (hd.prefixNot rfl) h.noPrefix

theorem IsPrimary.derives (h : IsPrimary ts) :
    ∃ n e, Derives .longest n (.operand .closed) ts e := by
  obtain ⟨e, hread⟩ := h.read
  have hoperand : (expression (ts.length + 1) .operand).read ts = .done e [] := hread
  obtain ⟨used, hts, ending, hd, -⟩ := expression_sound _ hoperand
  rw [List.append_nil] at hts
  subst hts
  cases ending with
  | closed => exact ⟨_, e, hd⟩
  | ajar =>
    cases hd
    exact absurd rfl h.unnegated

theorem derives_of_accepts_statement (h : Accepts statement ts) :
    ∃ n q, Derives .longest n .query ts q := by
  obtain ⟨q, hread⟩ := h
  obtain ⟨n, hd⟩ := (statement_done_iff (ts.length + 1) (Nat.le_succ _)).mp hread
  exact ⟨n, q, hd⟩

theorem Means.list {parts : List (List Token)} (hne : parts ≠ [])
    (h : ∀ part ∈ parts, ∃ e, Means part e) :
    ∃ n es, Derives .longest n (.list .expression) (commaSeparated parts) es := by
  refine ⟨parts.flatten.length, Derives.list hne fun part hpart => ?_⟩
  obtain ⟨e, n, hd⟩ := h part hpart
  exact ⟨e, hd.within_length.mono (List.sublist_flatten_of_mem hpart).length_le⟩

/-! ### The two places of `NOT` -/

/-- A predicate about `ts` with its `NOT` in front of all, and with it inside. -/
inductive Negates (ts : List Token) : List Token → List Token → Prop
  | inList {parts : List (List Token)} :
    parts ≠ [] → (∀ part ∈ parts, Accepts wholeExpression part) →
    Negates ts (.keyword .NOT :: (ts ++ .keyword .IN :: enclose (commaSeparated parts)))
      (ts ++ .keyword .NOT :: .keyword .IN :: enclose (commaSeparated parts))
  | inQuery {query : List Token} :
    Accepts statement query →
    Negates ts (.keyword .NOT :: (ts ++ .keyword .IN :: enclose query))
      (ts ++ .keyword .NOT :: .keyword .IN :: enclose query)
  | between {low high : List Token} :
    IsPrimary low → IsPrimary high →
    Negates ts (.keyword .NOT :: (ts ++ .keyword .BETWEEN :: (low ++ .keyword .AND :: high)))
      (ts ++ .keyword .NOT :: .keyword .BETWEEN :: (low ++ .keyword .AND :: high))
  | like {pattern : List Token} :
    IsPrimary pattern →
    Negates ts (.keyword .NOT :: (ts ++ .keyword .LIKE :: pattern))
      (ts ++ .keyword .NOT :: .keyword .LIKE :: pattern)
  | equal {right : List Token} :
    IsPrimary right →
    Negates ts (.keyword .NOT :: (ts ++ .eq :: right)) (ts ++ .notEq :: right)

/-- The last of the tails behind `NOT` takes it up. -/
theorem Derives.not_tail {ending : Ending} {t t' : Tail}
    (hl : Derives .longest n (.comparison .closed) ts e) (hrow : ts.head? ≠ some (.keyword .EXISTS))
    (ht : Derives .longest n (.tail ending) us t) (hneg : t.negate? = some t') :
    Derives .longest (n + 1) (.comparison .ajar) (.keyword .NOT :: (ts ++ us)) (t'.apply e) := by
  have hhead : (ts ++ us).head? = ts.head? := by
    obtain ⟨first, more, rfl, -⟩ := hl.begins
    rfl
  have hwhole := (hl.tail (fun _ => rfl) ht).not fun _ => hhead ▸ hrow
  rw [Tail.negate_apply_of_some hneg] at hwhole
  exact hwhole.operand

/-- A tail, and the one that it turns into when it takes up a negation. -/
structure Opposite (n : Nat) (us us' : List Token) (t t' : Tail) : Prop where
  plain : Derives .longest n (.tail .closed) us t
  negated : Derives .longest n (.tail .closed) us' t'
  taken : t.negate? = some t'

theorem Opposite.of_negated {t : Bool → Tail}
    (h : ∀ negated, Derives .longest n (.tail .closed) (notTokens negated ++ us) (t negated))
    (ht : (t false).negate? = some (t true)) :
    Opposite n us (.keyword .NOT :: us) (t false) (t true) :=
  ⟨h false, h true, ht⟩

theorem Negates.opposite {xs ys : List Token} (h : Negates ts xs ys) :
    ∃ n us us' t t', xs = .keyword .NOT :: (ts ++ us) ∧ ys = ts ++ us' ∧
      Opposite n us us' t t' := by
  cases h with
  | inList hne hparts =>
    obtain ⟨n, list, hd⟩ := Means.list hne fun part hpart => means_of_accepts (hparts part hpart)
    exact ⟨n + 1, _, _, _, _, rfl, rfl, .of_negated (fun _ => hd.inList) rfl⟩
  | inQuery hquery =>
    obtain ⟨n, q, hd⟩ := derives_of_accepts_statement hquery
    exact ⟨n + 1, _, _, _, _, rfl, rfl, .of_negated (fun _ => hd.inQuery) rfl⟩
  | between hlow hhigh =>
    obtain ⟨n, low, hdl⟩ := hlow.derives
    obtain ⟨m, high, hdh⟩ := hhigh.derives
    have hlow := hdl.mono (Nat.le_max_left n m)
    have hhigh := hdh.mono (Nat.le_max_right n m)
    exact ⟨max n m + 1, _, _, _, _, rfl, rfl, .of_negated (fun _ => hlow.between hhigh) rfl⟩
  | like hpattern =>
    obtain ⟨n, pattern, hd⟩ := hpattern.derives
    exact ⟨n + 1, _, _, _, _, rfl, rfl, .of_negated (fun _ => hd.like) rfl⟩
  | @equal right hright =>
    obtain ⟨n, e, hd⟩ := hright.derives
    have hcompare (op : Comparison) :
        Derives .longest (n + 1) (.tail .closed) (op.token :: right) (.compare op e) := hd.compare
    exact ⟨n + 1, _, _, _, _, rfl, rfl, hcompare .eq, hcompare .notEq, rfl⟩

/-- Both have the tree of the predicate without its `NOT`, negated, where the negation is that of
the predicate and no node above it. -/
theorem Negates.means {xs ys : List Token} (h : Negates ts xs ys) (hts : Negatable ts) :
    ∃ plain, Means xs.tail plain ∧ plain.negate.isNegated = true ∧
      Means xs plain.negate ∧ Means ys plain.negate := by
  obtain ⟨n, e, hd⟩ := hts.derives
  obtain ⟨m, us, us', t, t', rfl, rfl, hopposite⟩ := h.opposite
  have hleft := hd.mono (Nat.le_max_left n m)
  have hplain := hleft.tail (fun _ => rfl) (hopposite.plain.mono (Nat.le_max_right n m))
  have hbefore := hleft.not_tail hts.noRowTest (hopposite.plain.mono (Nat.le_max_right n m))
    hopposite.taken
  have hbehind := hleft.tail (fun _ => rfl) (hopposite.negated.mono (Nat.le_max_right n m))
  have hnegate := Tail.negate_apply_of_some hopposite.taken e
  refine ⟨t.apply e, ⟨_, hplain.comparison.conjunction.expression⟩, ?_, ?_, ?_⟩
  · rw [hnegate]
    exact Tail.isNegated_apply hopposite.taken e
  · rw [hnegate]
    exact ⟨_, hbefore.comparison.conjunction.expression⟩
  · rw [hnegate]
    exact ⟨_, hbehind.comparison.conjunction.expression⟩

end Grammar
end QueryCanon
