/-
How much deeper the wrapped tree nests.

A parenthesis is put around a right operand, which is one level in anyway, or around a
connective that is a whole condition, which has a right operand of its own.  So the levels
at most double.
-/
import QueryCanon.Proofs.Query.Levels
import QueryCanon.Proofs.Query.Wrapped

namespace QueryCanon

open QueryCanon.Expr

theorem Expr.levels_pos_of_wraps {e : Expr} (h : e.wrapsAsOperand = true) : 0 < e.levels := by
  cases e <;> first | (simp only [Expr.levels]; omega) | cases h

theorem Expr.levels_pos_of_isConnective {e : Expr} (h : e.isConnective = true) : 0 < e.levels := by
  cases e <;> first | (simp only [Expr.levels]; omega) | cases h

theorem Expr.levels_parenIf {needed : Bool} {e : Expr} {n : Nat} (hpos : needed = true → 0 < n)
    (h : e.levels ≤ 2 * n - 1) : (parenIf needed e).levels ≤ 2 * n := by
  cases needed with
  | false =>
    show e.levels ≤ 2 * n
    omega
  | true =>
    have hn := hpos rfl
    show e.levels + 1 ≤ 2 * n
    omega

theorem Expr.levels_operand {e : Expr} (h : e.wrapped.levels ≤ 2 * e.levels - 1) :
    (parenIf e.wrapsAsOperand e.wrapped).levels ≤ 2 * e.levels :=
  levels_parenIf levels_pos_of_wraps h

theorem Expr.levels_condition {e : Expr} (h : e.wrapped.levels ≤ 2 * e.levels - 1) :
    (parenIf e.isConnective e.wrapped).levels ≤ 2 * e.levels :=
  levels_parenIf levels_pos_of_isConnective h

mutual

theorem Expr.levels_wrapped_le (e : Expr) : e.wrapped.levels ≤ 2 * e.levels - 1 := by
  cases e with
  | star => exact Nat.le_refl 0
  | column => exact Nat.le_refl 1
  | literal => exact Nat.le_refl 1
  | call name args =>
    have hargs := Expr.eachLevels_wrapped_le args
    simp only [Expr.wrapped, Expr.levels]
    omega
  | subquery q =>
    have hq := Query.levels_wrapped_le q
    simp only [Expr.wrapped, Expr.levels]
    omega
  | and l r =>
    have hl := Expr.levels_wrapped_le l
    have hr := Expr.levels_wrapped_le r
    simp only [Expr.wrapped, Expr.levels]
    omega
  | or l r =>
    have hl := Expr.levels_wrapped_le l
    have hr := Expr.levels_wrapped_le r
    simp only [Expr.wrapped, Expr.levels]
    omega
  | not e =>
    have he := Expr.levels_wrapped_le e
    simp only [Expr.wrapped, Expr.levels]
    omega
  | paren e =>
    have he := Expr.levels_wrapped_le e
    simp only [Expr.wrapped, Expr.levels]
    omega
  | compare l op r =>
    have hl := Expr.levels_wrapped_le l
    have hr := levels_operand (Expr.levels_wrapped_le r)
    simp only [Expr.wrapped, Expr.levels]
    omega
  | between e low high negated =>
    have he := Expr.levels_wrapped_le e
    have hlow := levels_operand (Expr.levels_wrapped_le low)
    have hhigh := levels_operand (Expr.levels_wrapped_le high)
    simp only [Expr.wrapped, Expr.levels]
    omega
  | inList e list negated =>
    have he := Expr.levels_wrapped_le e
    have hlist := Expr.eachLevels_wrapped_le list
    simp only [Expr.wrapped, Expr.levels]
    omega
  | inQuery e q negated =>
    have he := Expr.levels_wrapped_le e
    have hq := Query.levels_wrapped_le q
    simp only [Expr.wrapped, Expr.levels]
    omega
  | like e pattern negated =>
    have he := Expr.levels_wrapped_le e
    have hpattern := levels_operand (Expr.levels_wrapped_le pattern)
    simp only [Expr.wrapped, Expr.levels]
    omega
  | isNull e negated =>
    have he := Expr.levels_wrapped_le e
    simp only [Expr.wrapped, Expr.levels]
    omega
  | hasRows q negated =>
    have hq := Query.levels_wrapped_le q
    simp only [Expr.wrapped, Expr.levels]
    omega
termination_by structural e

theorem Expr.eachLevels_wrapped_le (es : List Expr) :
    Expr.eachLevels (Expr.eachWrapped es) ≤ 2 * Expr.eachLevels es - 1 := by
  cases es with
  | nil => exact Nat.le_refl 0
  | cons e es =>
    have he := Expr.levels_wrapped_le e
    have hes := Expr.eachLevels_wrapped_le es
    simp only [Expr.eachWrapped, Expr.eachLevels]
    omega
termination_by structural es

theorem SelectItem.levels_wrapped_le (item : SelectItem) :
    item.wrapped.levels ≤ 2 * item.levels - 1 := by
  obtain ⟨e, label⟩ := item
  exact Expr.levels_wrapped_le e
termination_by structural item

theorem SelectItem.eachLevels_wrapped_le (items : List SelectItem) :
    SelectItem.eachLevels (SelectItem.eachWrapped items) ≤ 2 * SelectItem.eachLevels items - 1 := by
  cases items with
  | nil => exact Nat.le_refl 0
  | cons item items =>
    have hitem := SelectItem.levels_wrapped_le item
    have hitems := SelectItem.eachLevels_wrapped_le items
    simp only [SelectItem.eachWrapped, SelectItem.eachLevels]
    omega
termination_by structural items

theorem JoinCondition.levels_wrapped_le (c : JoinCondition) :
    c.wrapped.levels ≤ 2 * c.levels - 1 := by
  cases c with
  | test e => exact Expr.levels_wrapped_le e
  | columns names => exact Nat.le_refl 0
termination_by structural c

theorem Source.levels_wrapped_le (s : Source) : s.wrapped.levels ≤ 2 * s.levels - 1 := by
  cases s with
  | table t => exact Nat.le_refl 0
  | join l r kind condition =>
    have hl := Source.levels_wrapped_le l
    have hr := Source.levels_wrapped_le r
    cases condition with
    | none =>
      simp only [Source.wrapped, Source.levels]
      omega
    | some c =>
      have hc := JoinCondition.levels_wrapped_le c
      simp only [Source.wrapped, Source.levels]
      omega
termination_by structural s

theorem Query.levels_wrapped_le (q : Query) : q.wrapped.levels ≤ 2 * q.levels := by
  obtain ⟨items, source, scope, filter, groups, groupFilter, order, limit⟩ := q
  have hitems := SelectItem.eachLevels_wrapped_le items
  have hsource : (source.map Source.wrapped).elim 0 Source.levels ≤
      2 * source.elim 0 Source.levels := by
    cases source with
    | none => exact Nat.le_refl 0
    | some s => exact Nat.le_trans (Source.levels_wrapped_le s) (Nat.sub_le _ 1)
  have hfilter : (filter.map fun e => parenIf e.isConnective e.wrapped).elim 0 Expr.levels ≤
      2 * filter.elim 0 Expr.levels := by
    cases filter with
    | none => exact Nat.le_refl 0
    | some e => exact levels_condition (Expr.levels_wrapped_le e)
  have hgroupFilter :
      (groupFilter.map fun e => parenIf e.isConnective e.wrapped).elim 0 Expr.levels ≤
        2 * groupFilter.elim 0 Expr.levels := by
    cases groupFilter with
    | none => exact Nat.le_refl 0
    | some e => exact levels_condition (Expr.levels_wrapped_le e)
  rw [Query.wrapped_eq, Query.levels_eq, Query.levels_eq]
  omega
termination_by structural q

end

end QueryCanon
