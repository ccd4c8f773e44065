/-
Parentheses come in pairs.

In a phrase of the grammar every parenthesis has its other half, and no semicolon stands
there.  So what a reader takes never ends inside a parenthesis that it opened, and a
semicolon is never part of a query.
-/
import QueryCanon.Proofs.Grammar.Derivation

namespace QueryCanon
namespace Grammar

variable {ts us : List Token} {t : Token}

/-! ### Counting -/

/-- The number of parentheses open behind a token, if `opened` are open before it.  None can
be closed that is not open. -/
def openBehind (opened : Nat) : Token → Option Nat
  | .leftParen => some (opened + 1)
  | .rightParen =>
    match opened with
    | 0 => none
    | opened + 1 => some opened
  | _ => some opened

/-- Every parenthesis in `ts` has its other half there. -/
def Balanced (ts : List Token) : Prop := ts.foldlM openBehind 0 = some 0

instance (ts : List Token) : Decidable (Balanced ts) := inferInstanceAs (Decidable (_ = _))

theorem openBehind_add {n m : Nat} (h : openBehind n t = some m) (k : Nat) :
    openBehind (n + k) t = some (m + k) := by
  unfold openBehind at h ⊢
  split at h
  · cases h
    exact congrArg some (Nat.add_right_comm n k 1)
  · cases n with
    | zero => cases h
    | succ n =>
      cases h
      rw [Nat.add_right_comm]
  · cases h
    rfl

/-- Parentheses that are open all the way do not matter. -/
theorem foldlM_openBehind_add {n m : Nat} (h : ts.foldlM openBehind n = some m) (k : Nat) :
    ts.foldlM openBehind (n + k) = some (m + k) := by
  induction ts generalizing n with
  | nil =>
    cases h
    rfl
  | cons t ts ih =>
    obtain ⟨l, hl, h⟩ := Option.bind_eq_some_iff.mp h
    exact Option.bind_eq_some_iff.mpr ⟨l + k, openBehind_add hl k, ih h⟩

theorem Balanced.open_eq (h : Balanced ts) (n : Nat) : ts.foldlM openBehind n = some n := by
  simpa using foldlM_openBehind_add h n

theorem Balanced.nil : Balanced [] := rfl

theorem Balanced.append (h : Balanced ts) (h' : Balanced us) : Balanced (ts ++ us) := by
  rw [Balanced, List.foldlM_append, h.open_eq]
  exact h'

theorem Balanced.enclose (h : Balanced ts) : Balanced (enclose ts) := by
  have hopen : ts.foldlM openBehind 1 = some 1 := h.open_eq 1
  change (ts ++ [Token.rightParen]).foldlM openBehind 1 = some 0
  rw [List.foldlM_append, hopen]
  rfl

/-! ### Phrases -/

/-- Nothing in `ts` ends outside it: no parenthesis, and no statement. -/
structure Sealed (ts : List Token) : Prop where
  balanced : Balanced ts
  unended : .semicolon ∉ ts

namespace Sealed

theorem nil : Sealed [] := ⟨.nil, List.not_mem_nil⟩

theorem append (h : Sealed ts) (h' : Sealed us) : Sealed (ts ++ us) :=
  ⟨h.balanced.append h'.balanced, by simp [h.unended, h'.unended]⟩

theorem enclose (h : Sealed ts) : Sealed (enclose ts) :=
  ⟨h.balanced.enclose, by simp [QueryCanon.enclose, h.unended]⟩

theorem token (ht : t.isPlain = true) : Sealed [t] := by
  cases t with
  | dot => cases ht
  | leftParen => cases ht
  | rightParen => cases ht
  | semicolon => cases ht
  | _ => exact ⟨rfl, by simp⟩

end Sealed

theorem piecewise_sealed : Piecewise Sealed where
  nil := .nil
  append h h' := h.append h'
  enclose h := h.enclose
  token ht _ := .token ht
  point _ := ⟨rfl, by simp⟩

theorem Sealed.word (k : Keyword) (h : Sealed ts) : Sealed (.keyword k :: ts) :=
  piecewise_sealed.word (.token rfl) k h

theorem Sealed.negated (negated : Bool) (k : Keyword) (h : Sealed ts) :
    Sealed (notTokens negated ++ .keyword k :: ts) :=
  piecewise_sealed.negated (.token rfl) negated k h

/-- What a phrase opens it closes, and no phrase goes on behind a semicolon. -/
theorem Derives.sealed {choice : Choice} {n : Nat} {s : Symbol} {v : s.Value}
    (h : Derives choice n s ts v) : Sealed ts :=
  piecewise_sealed.phrase (.token rfl) h

end Grammar
end QueryCanon
