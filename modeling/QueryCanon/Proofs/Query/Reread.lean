/-
The tree that the text of any expression is read as, and its grouping.

An expression that was put together by hand may have operands that no text gives it.  Most
of them are written in parentheses, and chains of one connective are read from the left;
neither changes the normal form.  One operand is not: a `NOT` over a comparison or a
predicate that begins with `EXISTS` is written right before that `EXISTS`, and is read as
part of it (`Expr.capturesNot`).  The grouping is kept exactly if there is no such `NOT`
(`Expr.normal_reread_iff`).
-/
import QueryCanon.Proofs.Grammar.Derivation
import QueryCanon.Proofs.Query.Normal
import QueryCanon.Proofs.Query.Shape

namespace QueryCanon

namespace Expr

/-- Whether the text of an operand begins with `EXISTS`. -/
def beginsWithRowTest : Expr → Bool
  | compare l _ _ => l.beginsWithRowTest
  | between e _ _ _ => e.beginsWithRowTest
  | inList e _ _ => e.beginsWithRowTest
  | inQuery e _ _ => e.beginsWithRowTest
  | like e _ _ => e.beginsWithRowTest
  | isNull e _ => e.beginsWithRowTest
  | e => e.isPlainRowTest

/-- The negation of the `EXISTS` that an operand begins with. -/
def negateFirst : Expr → Expr
  | compare l op r => compare l.negateFirst op r
  | between e low high negated => between e.negateFirst low high negated
  | inList e list negated => inList e.negateFirst list negated
  | inQuery e q negated => inQuery e.negateFirst q negated
  | like e pattern negated => like e.negateFirst pattern negated
  | isNull e negated => isNull e.negateFirst negated
  | hasRows q _ => hasRows q true
  | e => e

end Expr

mutual

/-- What the text of an expression is read as.  A query in it is one that was read. -/
def Expr.reread : Expr → Expr
  | .star => .star
  | .column c => .column c
  | .literal l => .literal l
  | .call name args => .call name (Expr.eachReread args)
  | .subquery q => .subquery q.wrapped
  | .and l r =>
    (Expr.parenIf l.looserThanAnd l.reread).andLeft (.parenIf r.looserThanAnd r.reread)
  | .or l r => l.reread.orLeft r.reread
  | .not e =>
    if e.beginsWithRowTest then e.reread.negateFirst
    else (Expr.parenIf e.isConnective e.reread).negate
  | .paren e => .paren e.reread
  | .compare l op r =>
    .compare (.parenIf l.looserThanComparison l.reread) op (.parenIf r.looserThanOperand r.reread)
  | .between e low high negated =>
    .between (.parenIf e.looserThanComparison e.reread)
      (.parenIf low.looserThanOperand low.reread) (.parenIf high.looserThanOperand high.reread)
      negated
  | .inList e list negated =>
    .inList (.parenIf e.looserThanComparison e.reread) (Expr.eachReread list) negated
  | .inQuery e q negated => .inQuery (.parenIf e.looserThanComparison e.reread) q.wrapped negated
  | .like e pattern negated =>
    .like (.parenIf e.looserThanComparison e.reread)
      (.parenIf pattern.looserThanOperand pattern.reread) negated
  | .isNull e negated => .isNull (.parenIf e.looserThanComparison e.reread) negated
  | .hasRows q negated => .hasRows q.wrapped negated

def Expr.eachReread : List Expr → List Expr
  | [] => []
  | e :: es => e.reread :: Expr.eachReread es

end

mutual

/-- The number of nodes with the property `p`, those inside of queries left out. -/
def Expr.count (p : Expr → Bool) : Expr → Nat
  | .star => (p .star).toNat
  | .column c => (p (.column c)).toNat
  | .literal l => (p (.literal l)).toNat
  | .call name args => (p (.call name args)).toNat + Expr.eachCount p args
  | .subquery q => (p (.subquery q)).toNat
  | .and l r => (p (.and l r)).toNat + (l.count p + r.count p)
  | .or l r => (p (.or l r)).toNat + (l.count p + r.count p)
  | .not e => (p (.not e)).toNat + e.count p
  | .paren e => (p (.paren e)).toNat + e.count p
  | .compare l op r => (p (.compare l op r)).toNat + (l.count p + r.count p)
  | .between e low high negated =>
    (p (.between e low high negated)).toNat + (e.count p + (low.count p + high.count p))
  | .inList e list negated =>
    (p (.inList e list negated)).toNat + (e.count p + Expr.eachCount p list)
  | .inQuery e q negated => (p (.inQuery e q negated)).toNat + e.count p
  | .like e pattern negated =>
    (p (.like e pattern negated)).toNat + (e.count p + pattern.count p)
  | .isNull e negated => (p (.isNull e negated)).toNat + e.count p
  | .hasRows q negated => (p (.hasRows q negated)).toNat

def Expr.eachCount (p : Expr → Bool) : List Expr → Nat
  | [] => 0
  | e :: es => e.count p + Expr.eachCount p es

end

namespace Expr

/-- A `NOT` over an operand that begins with `EXISTS` and is more than that. -/
def capturesNot : Expr → Bool
  | not e => e.beginsWithRowTest && !e.isPlainRowTest
  | _ => false

/-- An `EXISTS` with its `NOT`. -/
def isAbsence : Expr → Bool
  | hasRows _ negated => negated
  | _ => false

/-! ### What begins with `EXISTS` -/

theorem tight_of_beginsWithRowTest {e : Expr} (h : e.beginsWithRowTest = true) :
    e.looserThanComparison = false ∧ e.isConnective = false := by
  cases e <;> first | exact ⟨rfl, rfl⟩ | cases h

theorem isPlainRowTest_absorbed (e : Expr) : e.absorbed.isPlainRowTest = false := by
  unfold absorbed negate
  split
  · rfl
  · split <;> rfl

theorem isPlainRowTest_andLeft (l r : Expr) : (l.andLeft r).isPlainRowTest = false := by
  cases r <;> rfl

theorem isPlainRowTest_orLeft (l r : Expr) : (l.orLeft r).isPlainRowTest = false := by
  cases r <;> rfl

theorem isPlainRowTest_negateFirst {e : Expr} (h : e.beginsWithRowTest = true) :
    e.reread.negateFirst.normal.isPlainRowTest = false := by
  cases e <;> first | rfl | cases h

/-- Reading neither makes nor loses an `EXISTS` that is the whole. -/
theorem isPlainRowTest_reread (e : Expr) :
    e.reread.normal.isPlainRowTest = e.normal.isPlainRowTest := by
  cases e with
  | and l r => simp only [reread, normal, normal_andLeft, isPlainRowTest_andLeft]
  | or l r => simp only [reread, normal, normal_orLeft, isPlainRowTest_orLeft]
  | not e =>
    rw [normal, isPlainRowTest_absorbed, reread]
    by_cases h : e.beginsWithRowTest = true
    · rw [if_pos h]
      exact isPlainRowTest_negateFirst h
    · rw [if_neg h, normal_negate, isPlainRowTest_absorbed]
  | paren e => exact isPlainRowTest_reread e
  | hasRows q negated => cases negated <;> rfl
  | _ => rfl
termination_by structural e

/-! ### Counting the negated `EXISTS` -/

theorem count_andLeft (l r : Expr) :
    (l.andLeft r).count isAbsence = l.count isAbsence + r.count isAbsence := by
  cases r with
  | and a b =>
    simp only [andLeft, count, count_andLeft l a, isAbsence, Bool.toNat_false]
    omega
  | _ => simp [andLeft, count, isAbsence]
termination_by structural r

theorem count_orLeft (l r : Expr) :
    (l.orLeft r).count isAbsence = l.count isAbsence + r.count isAbsence := by
  cases r with
  | or a b =>
    simp only [orLeft, count, count_orLeft l a, isAbsence, Bool.toNat_false]
    omega
  | _ => simp [orLeft, count, isAbsence]
termination_by structural r

theorem count_absorbed (e : Expr) :
    e.absorbed.count isAbsence = e.count isAbsence + e.isPlainRowTest.toNat := by
  unfold absorbed negate
  split
  · rfl
  · next hplain =>
    have hrow : e.isPlainRowTest = false := by
      unfold isPlainRowTest
      split
      · exact absurd rfl (hplain _)
      · rfl
    rw [hrow]
    split <;> simp [count, isAbsence]

theorem count_negateFirst_apply (t : Grammar.Tail) {l : Expr} (h : l.beginsWithRowTest = true)
    (hl : l.reread.negateFirst.normal.count isAbsence = l.reread.normal.count isAbsence + 1) :
    (t.apply l).reread.negateFirst.normal.count isAbsence =
      (t.apply l).reread.normal.count isAbsence + 1 := by
  have htight := (tight_of_beginsWithRowTest h).1
  cases t <;>
    simp only [Grammar.Tail.apply, reread, negateFirst, normal, count, isAbsence, parenIf, htight,
      Bool.false_eq_true, if_false, hl] <;>
    omega

/-- A negation that goes to the first `EXISTS` makes one more. -/
theorem count_negateFirst {e : Expr} (h : e.beginsWithRowTest = true) :
    e.reread.negateFirst.normal.count isAbsence = e.reread.normal.count isAbsence + 1 := by
  cases e with
  | compare l op r => exact count_negateFirst_apply (.compare op r) h (count_negateFirst h)
  | between l low high negated =>
    exact count_negateFirst_apply (.between low high negated) h (count_negateFirst h)
  | inList l list negated =>
    exact count_negateFirst_apply (.inList list negated) h (count_negateFirst h)
  | inQuery l q negated =>
    exact count_negateFirst_apply (.inQuery q negated) h (count_negateFirst h)
  | like l pattern negated =>
    exact count_negateFirst_apply (.like pattern negated) h (count_negateFirst h)
  | isNull l negated => exact count_negateFirst_apply (.isNull negated) h (count_negateFirst h)
  | hasRows q negated =>
    cases negated with
    | false => rfl
    | true => cases h
  | _ => cases h
termination_by structural e

/-- Apart from its `EXISTS`, what begins with one is the same in normal form. -/
theorem isPlainRowTest_normal {e : Expr} (h : e.beginsWithRowTest = true) :
    e.normal.isPlainRowTest = e.isPlainRowTest := by
  cases e with
  | hasRows q negated => cases negated <;> rfl
  | _ => first | rfl | cases h

theorem count_reread_not {e : Expr} (he : e.reread.normal.count isAbsence =
    e.normal.count isAbsence + e.count capturesNot) :
    (not e).reread.normal.count isAbsence =
      (not e).normal.count isAbsence + (not e).count capturesNot := by
  simp only [normal, count_absorbed, count, capturesNot]
  by_cases h : e.beginsWithRowTest = true
  · rw [reread, if_pos h, count_negateFirst h, isPlainRowTest_normal h, h]
    cases e.isPlainRowTest <;>
      simp only [Bool.and_true, Bool.and_false, Bool.not_true, Bool.not_false, Bool.toNat_true,
        Bool.toNat_false] <;>
      omega
  · have hfirst : e.beginsWithRowTest = false := by simpa using h
    rw [reread, if_neg h, normal_negate, count_absorbed, normal_parenIf, isPlainRowTest_reread,
      hfirst, Bool.false_and, Bool.toNat_false]
    omega

end Expr

open QueryCanon.Expr

mutual

/-- Each `NOT` that is captured gives one more `EXISTS` its negation. -/
theorem Expr.count_reread (e : Expr) :
    e.reread.normal.count isAbsence = e.normal.count isAbsence + e.count capturesNot := by
  cases e with
  | star => rfl
  | column => rfl
  | literal => rfl
  | call name args =>
    simp only [Expr.reread, Expr.normal, Expr.count, isAbsence, capturesNot, Bool.toNat_false,
      Expr.eachCount_reread args]
    omega
  | subquery q => rfl
  | and l r =>
    simp only [Expr.reread, Expr.normal, normal_andLeft, normal_parenIf, count_andLeft, Expr.count,
      capturesNot, Bool.toNat_false, Expr.count_reread l, Expr.count_reread r]
    omega
  | or l r =>
    simp only [Expr.reread, Expr.normal, normal_orLeft, count_orLeft, Expr.count,
      capturesNot, Bool.toNat_false, Expr.count_reread l, Expr.count_reread r]
    omega
  | not e => exact count_reread_not (Expr.count_reread e)
  | paren e =>
    simp only [Expr.reread, Expr.normal, Expr.count, capturesNot, Bool.toNat_false,
      Expr.count_reread e]
    omega
  | compare l op r =>
    simp only [Expr.reread, Expr.normal, normal_parenIf, Expr.count, isAbsence, capturesNot,
      Bool.toNat_false, Expr.count_reread l, Expr.count_reread r]
    omega
  | between e low high negated =>
    simp only [Expr.reread, Expr.normal, normal_parenIf, Expr.count, isAbsence, capturesNot,
      Bool.toNat_false, Expr.count_reread e, Expr.count_reread low, Expr.count_reread high]
    omega
  | inList e list negated =>
    simp only [Expr.reread, Expr.normal, normal_parenIf, Expr.count, isAbsence, capturesNot,
      Bool.toNat_false, Expr.count_reread e, Expr.eachCount_reread list]
    omega
  | inQuery e q negated =>
    simp only [Expr.reread, Expr.normal, normal_parenIf, Expr.count, isAbsence, capturesNot,
      Bool.toNat_false, Expr.count_reread e]
    omega
  | like e pattern negated =>
    simp only [Expr.reread, Expr.normal, normal_parenIf, Expr.count, isAbsence, capturesNot,
      Bool.toNat_false, Expr.count_reread e, Expr.count_reread pattern]
    omega
  | isNull e negated =>
    simp only [Expr.reread, Expr.normal, normal_parenIf, Expr.count, isAbsence, capturesNot,
      Bool.toNat_false, Expr.count_reread e]
    omega
  | hasRows q negated => rfl
termination_by structural e

theorem Expr.eachCount_reread (es : List Expr) :
    Expr.eachCount isAbsence (Expr.eachNormal (Expr.eachReread es)) =
      Expr.eachCount isAbsence (Expr.eachNormal es) + Expr.eachCount capturesNot es := by
  cases es with
  | nil => rfl
  | cons e es =>
    simp only [Expr.eachReread, Expr.eachNormal, Expr.eachCount, Expr.count_reread e,
      Expr.eachCount_reread es]
    omega
termination_by structural es

end

/-! ### The grouping -/

theorem Expr.normal_reread_not {e : Expr} (he : e.reread.normal = e.normal)
    (h : (not e).capturesNot = false) : (not e).reread.normal = (not e).normal := by
  by_cases hfirst : e.beginsWithRowTest = true
  · -- The operand is no more than its `EXISTS`.
    cases e with
    | hasRows q negated =>
      cases negated with
      | false => exact congrArg (hasRows · true) (Query.normal_wrapped q)
      | true => cases hfirst
    | _ => simp [capturesNot, hfirst, isPlainRowTest] at h
  · rw [reread, if_neg hfirst, normal_negate, normal_parenIf, he, normal]

mutual

theorem Expr.normal_reread (e : Expr) (h : e.count capturesNot = 0) :
    e.reread.normal = e.normal := by
  cases e with
  | star => rfl
  | column => rfl
  | literal => rfl
  | call name args =>
    simp only [Expr.count, Nat.add_eq_zero_iff] at h
    simp only [Expr.reread, Expr.normal, Expr.eachNormal_reread args h.2]
  | subquery q => simp only [Expr.reread, Expr.normal, Query.normal_wrapped q]
  | and l r =>
    simp only [Expr.count, Nat.add_eq_zero_iff] at h
    simp only [Expr.reread, Expr.normal, normal_andLeft, normal_parenIf, Expr.normal_reread l h.2.1,
      Expr.normal_reread r h.2.2]
  | or l r =>
    simp only [Expr.count, Nat.add_eq_zero_iff] at h
    simp only [Expr.reread, Expr.normal, normal_orLeft, Expr.normal_reread l h.2.1,
      Expr.normal_reread r h.2.2]
  | not e =>
    simp only [Expr.count, Nat.add_eq_zero_iff, Bool.toNat_eq_zero] at h
    exact normal_reread_not (Expr.normal_reread e h.2) h.1
  | paren e =>
    simp only [Expr.count, Nat.add_eq_zero_iff] at h
    exact Expr.normal_reread e h.2
  | compare l op r =>
    simp only [Expr.count, Nat.add_eq_zero_iff] at h
    simp only [Expr.reread, Expr.normal, normal_parenIf, Expr.normal_reread l h.2.1,
      Expr.normal_reread r h.2.2]
  | between e low high negated =>
    simp only [Expr.count, Nat.add_eq_zero_iff] at h
    simp only [Expr.reread, Expr.normal, normal_parenIf, Expr.normal_reread e h.2.1,
      Expr.normal_reread low h.2.2.1, Expr.normal_reread high h.2.2.2]
  | inList e list negated =>
    simp only [Expr.count, Nat.add_eq_zero_iff] at h
    simp only [Expr.reread, Expr.normal, normal_parenIf, Expr.normal_reread e h.2.1,
      Expr.eachNormal_reread list h.2.2]
  | inQuery e q negated =>
    simp only [Expr.count, Nat.add_eq_zero_iff] at h
    simp only [Expr.reread, Expr.normal, normal_parenIf, Expr.normal_reread e h.2,
      Query.normal_wrapped q]
  | like e pattern negated =>
    simp only [Expr.count, Nat.add_eq_zero_iff] at h
    simp only [Expr.reread, Expr.normal, normal_parenIf, Expr.normal_reread e h.2.1,
      Expr.normal_reread pattern h.2.2]
  | isNull e negated =>
    simp only [Expr.count, Nat.add_eq_zero_iff] at h
    simp only [Expr.reread, Expr.normal, normal_parenIf, Expr.normal_reread e h.2]
  | hasRows q negated => simp only [Expr.reread, Expr.normal, Query.normal_wrapped q]
termination_by structural e

theorem Expr.eachNormal_reread (es : List Expr) (h : Expr.eachCount capturesNot es = 0) :
    Expr.eachNormal (Expr.eachReread es) = Expr.eachNormal es := by
  cases es with
  | nil => rfl
  | cons e es =>
    simp only [Expr.eachCount, Nat.add_eq_zero_iff] at h
    simp only [Expr.eachReread, Expr.eachNormal, Expr.normal_reread e h.1,
      Expr.eachNormal_reread es h.2]
termination_by structural es

end

/-- The text keeps the grouping exactly if no `NOT` in it is captured. -/
theorem Expr.normal_reread_iff (e : Expr) :
    e.reread.normal = e.normal ↔ e.count capturesNot = 0 := by
  refine ⟨fun h => ?_, Expr.normal_reread e⟩
  have hcount := Expr.count_reread e
  rw [h] at hcount
  omega

end QueryCanon
