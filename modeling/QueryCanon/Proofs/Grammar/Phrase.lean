/-
A phrase at its place: an expression as a reader of some level takes it, with what comes
next.
-/
import QueryCanon.Proofs.Grammar.Leaf

namespace QueryCanon
namespace Grammar

/-- The tokens that begin a comparison or predicate behind its operand. -/
def beginsComparison : Token → Bool
  | .eq => true
  | .notEq => true
  | .less => true
  | .lessEq => true
  | .greater => true
  | .greaterEq => true
  | .keyword .IS => true
  | .keyword .NOT => true
  | .keyword .IN => true
  | .keyword .BETWEEN => true
  | .keyword .LIKE => true
  | _ => false

/-- The tokens with which an expression of a level goes on. -/
def beginsTail : Level → Token → Bool
  | .operand, _ => false
  | .comparison, t => beginsComparison t
  | .conjunction, t => t == .keyword .AND || beginsComparison t
  | .disjunction, t => t == .keyword .OR || (t == .keyword .AND || beginsComparison t)

theorem isSome_comparisonTail (sub : Level → Reader Expr) (t : Token) :
    (comparisonTail sub t).isSome = beginsComparison t := by
  cases t with
  | keyword k => cases k <;> rfl
  | _ => rfl

theorem isSome_andTail (sub : Level → Reader Expr) (t : Token) :
    (andTail sub t).isSome = (t == .keyword .AND) := by
  cases t with
  | keyword k => cases k <;> rfl
  | _ => rfl

theorem isSome_orTail (sub : Level → Reader Expr) (t : Token) :
    (orTail sub t).isSome = (t == .keyword .OR) := by
  cases t with
  | keyword k => cases k <;> rfl
  | _ => rfl

/-- A tail is read exactly where a token begins one. -/
theorem isSome_tail (sub : Level → Reader Expr) (level : Level) (t : Token) :
    (tail sub level t).isSome = beginsTail level t := by
  cases level with
  | operand => rfl
  | comparison => exact isSome_comparisonTail sub t
  | conjunction =>
    simp only [tail, beginsTail, Option.isSome_or, isSome_andTail, isSome_comparisonTail]
  | disjunction =>
    simp only [tail, beginsTail, Option.isSome_or, isSome_orTail, isSome_andTail,
      isSome_comparisonTail]

/-- `used` is an expression of the level in front of `rest`, and `rest` does not go on
with it. -/
def Phrase (n : Nat) : Level → List Token → Expr → List Token → Prop
  | .operand, used, e, rest =>
    ∃ ending, Derives .longest n (.operand ending) used e ∧
      (ending = .ajar → Clear beginsComparison rest)
  | .comparison, used, e, rest =>
    (∃ ending, Derives .longest n (.comparison ending) used e) ∧ Clear (beginsTail .comparison) rest
  | .conjunction, used, e, rest =>
    Derives .longest n .conjunction used e ∧ Clear (beginsTail .conjunction) rest
  | .disjunction, used, e, rest =>
    Derives .longest n .disjunction used e ∧ Clear (beginsTail .disjunction) rest

end Grammar
end QueryCanon
