/-
The tokens, the levels and the wrapped form of a phrase of any kind.

A tail has its own tokens, levels and wrapped form, and behind its operand they are those
of the whole.
-/
import QueryCanon.Proofs.Grammar.Derivation
import QueryCanon.Proofs.Query.Levels
import QueryCanon.Proofs.Query.Wrapped

namespace QueryCanon
namespace Grammar

/-! ### Tails -/

namespace Tail

def tokens : Tail → List Token
  | compare op r => op.token :: encloseIf r.looserThanOperand r.tokens
  | between low high negated =>
    notTokens negated ++ .keyword .BETWEEN ::
      (encloseIf low.looserThanOperand low.tokens ++
        .keyword .AND :: encloseIf high.looserThanOperand high.tokens)
  | inList list negated =>
    notTokens negated ++ .keyword .IN :: enclose (commaSeparated (Expr.eachTokens list))
  | inQuery q negated => notTokens negated ++ .keyword .IN :: enclose q.tokens
  | like pattern negated =>
    notTokens negated ++ .keyword .LIKE :: encloseIf pattern.looserThanOperand pattern.tokens
  | isNull negated => .keyword .IS :: (notTokens negated ++ [.keyword .NULL])

def wrapped : Tail → Tail
  | compare op r => compare op (.parenIf r.wrapsAsOperand r.wrapped)
  | between low high negated =>
    between (.parenIf low.wrapsAsOperand low.wrapped) (.parenIf high.wrapsAsOperand high.wrapped)
      negated
  | inList list negated => inList (Expr.eachWrapped list) negated
  | inQuery q negated => inQuery q.wrapped negated
  | like pattern negated => like (.parenIf pattern.wrapsAsOperand pattern.wrapped) negated
  | isNull negated => isNull negated

def levels : Tail → Nat
  | compare _ r => r.levels + 1
  | between low high _ => max low.levels high.levels + 1
  | inList list _ => Expr.eachLevels list + 1
  | inQuery q _ => q.levels + 1
  | like pattern _ => pattern.levels + 1
  | isNull _ => 1

/-- The tail that takes a negation up, if there is one. -/
def negate? : Tail → Option Tail
  | compare .eq r => some (compare .notEq r)
  | between low high false => some (between low high true)
  | inList list false => some (inList list true)
  | inQuery q false => some (inQuery q true)
  | like pattern false => some (like pattern true)
  | _ => none

theorem tokens_apply (t : Tail) (l : Expr) :
    (t.apply l).tokens = encloseIf l.looserThanComparison l.tokens ++ t.tokens := by
  cases t <;> simp [apply, tokens, Expr.tokens]

theorem wrapped_apply (t : Tail) (l : Expr) :
    (t.apply l).wrapped = t.wrapped.apply l.wrapped := by
  cases t <;> rfl

theorem levels_apply (t : Tail) (l : Expr) : (t.apply l).levels = max l.levels t.levels := by
  cases t <;> rfl

theorem negate_apply_of_some {t t' : Tail} (h : t.negate? = some t') (l : Expr) :
    (t.apply l).negate = t'.apply l := by
  unfold negate? at h
  split at h <;> cases h <;> rfl

theorem isNegated_apply {t t' : Tail} (h : t.negate? = some t') (l : Expr) :
    (t'.apply l).isNegated = true := by
  unfold negate? at h
  split at h <;> cases h <;> rfl

theorem negate_apply_of_none {t : Tail} (h : t.negate? = none) (l : Expr) :
    (t.apply l).negate = .not (t.apply l) := by
  unfold Expr.negate
  split <;> first | rfl | (cases t <;> simp_all [apply, negate?])

end Tail

/-! ### Phrases -/

namespace Symbol

def tokens : (s : Symbol) → s.Value → List Token
  | query, q => q.tokens
  | item, i => i.tokens
  | source, s => s.tokens
  | link _, o => o.elim [] JoinCondition.tokens
  | condition, e => e.conditionTokens
  | expression, e => e.tokens
  | disjunction, e => e.tokens
  | conjunction, e => e.tokens
  | comparison _, e => e.tokens
  | operand _, e => e.tokens
  | tail _, t => t.tokens
  | arguments, args => commaSeparated (Expr.eachTokens args)
  | list s, vs => commaSeparated (vs.map s.tokens)
  | clause k s, o => clauseTokens k (o.map s.tokens)

def wrapped : (s : Symbol) → s.Value → s.Value
  | query, q => q.wrapped
  | item, i => i.wrapped
  | source, s => s.wrapped
  | link _, o => o.map JoinCondition.wrapped
  | condition, e => .parenIf e.isConnective e.wrapped
  | expression, e => e.wrapped
  | disjunction, e => e.wrapped
  | conjunction, e => e.wrapped
  | comparison _, e => e.wrapped
  | operand _, e => e.wrapped
  | tail _, t => t.wrapped
  | arguments, args => Expr.eachWrapped args
  | list s, vs => vs.map s.wrapped
  | clause _ s, o => o.map s.wrapped

def levels : (s : Symbol) → s.Value → Nat
  | query, q => q.levels
  | item, i => i.levels
  | source, s => s.levels
  | link _, o => o.elim 0 JoinCondition.levels
  | condition, e => e.levels
  | expression, e => e.levels
  | disjunction, e => e.levels
  | conjunction, e => e.levels
  | comparison _, e => e.levels
  | operand _, e => e.levels
  | tail _, t => t.levels
  | arguments, args => Expr.eachLevels args
  | list s, vs => vs.foldr (fun v deepest => max (s.levels v) deepest) 0
  | clause _ s, o => o.elim 0 s.levels

end Symbol

theorem eachLevels_eq (es : List Expr) :
    Expr.eachLevels es = (Symbol.list .expression).levels es := by
  induction es with
  | nil => rfl
  | cons e es ih => simp [Expr.eachLevels, ih, Symbol.levels]

theorem items_eachLevels_eq (items : List SelectItem) :
    SelectItem.eachLevels items = (Symbol.list .item).levels items := by
  induction items with
  | nil => rfl
  | cons item items ih => simp [SelectItem.eachLevels, ih, Symbol.levels]

/-- The bound on the nesting of a phrase bounds the levels of its tree. -/
theorem Derives.levels_le {choice : Choice} {n : Nat} {s : Symbol} {ts : List Token} {v : s.Value}
    (h : Derives choice n s ts v) : s.levels v ≤ n := by
  induction h with
  | query _ _ _ _ ih₁ ih₂ ih₃ ih₄ =>
    simp only [Symbol.levels, Query.levels_eq, items_eachLevels_eq] at *
    exact Nat.max_le.mpr ⟨ih₁, Nat.max_le.mpr ⟨ih₂, Nat.max_le.mpr ⟨ih₃, ih₄⟩⟩⟩
  | star => exact Nat.zero_le _
  | item _ ih => exact ih
  | table => exact Nat.zero_le _
  | join _ _ _ ih₁ ih₂ =>
    simp only [Symbol.levels, Source.levels_join, Source.levels] at *
    omega
  | unconditional => exact Nat.zero_le _
  | test _ _ ih => exact ih
  | columns _ => exact Nat.zero_le _
  | condition _ ih => exact ih
  | expression _ ih => exact ih
  | conjunction _ ih => exact ih
  | or _ _ ih₁ ih₂ =>
    simp only [Symbol.levels, Expr.levels] at *
    omega
  | comparison _ ih => exact ih
  | and _ _ ih₁ ih₂ =>
    simp only [Symbol.levels, Expr.levels] at *
    omega
  | operand _ ih => exact ih
  | tail _ _ _ ih₁ ih₂ =>
    simp only [Symbol.levels, Tail.levels_apply] at *
    omega
  | compare _ ih => exact Nat.succ_le_succ ih
  | between _ _ ih₁ ih₂ => exact Nat.succ_le_succ (Nat.max_le.mpr ⟨ih₁, ih₂⟩)
  | inList _ ih =>
    simp only [Symbol.levels, Tail.levels, eachLevels_eq] at *
    omega
  | inQuery _ ih => exact Nat.succ_le_succ ih
  | like _ ih => exact Nat.succ_le_succ ih
  | isNull _ => exact Nat.succ_le_succ (Nat.zero_le _)
  | literal _ => exact Nat.succ_le_succ (Nat.zero_le _)
  | column => exact Nat.succ_le_succ (Nat.zero_le _)
  | call _ ih => exact Nat.succ_le_succ ih
  | subquery _ ih => exact Nat.succ_le_succ ih
  | paren _ ih => exact Nat.succ_le_succ ih
  | hasRows _ ih => exact Nat.succ_le_succ ih
  | hasNoRows _ ih => exact Nat.succ_le_succ ih
  | not _ _ ih => exact Nat.le_trans (Expr.levels_negate_le _) (Nat.succ_le_succ ih)
  | noArguments => exact Nat.zero_le _
  | starArgument => exact Nat.zero_le _
  | arguments _ ih =>
    simp only [Symbol.levels, eachLevels_eq] at *
    exact ih
  | one _ ih => exact Nat.max_le.mpr ⟨ih, Nat.zero_le _⟩
  | more _ _ ih₁ ih₂ => exact Nat.max_le.mpr ⟨ih₁, ih₂⟩
  | absent => exact Nat.zero_le _
  | present _ ih => exact ih

end Grammar
end QueryCanon
