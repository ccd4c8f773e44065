/-
How far a `NOT` reaches.

Under `longest` fewer trees are derived than under `joined`, but the same token lists: what
a shorter `NOT` leaves behind, a longer one can take up.  A tail that follows the operand
of a `NOT` goes into that operand (`Derives.absorb`).
-/
import QueryCanon.Proofs.Grammar.Completeness

namespace QueryCanon
namespace Grammar

variable {choice choice' : Choice} {n m : Nat} {s : Symbol} {ts us : List Token} {v : s.Value}

namespace Derives

/-- A choice derives whatever a narrower one does. -/
theorem loosen (h : Derives choice n s ts v)
    (hadmits : ∀ ending, choice.Admits ending → choice'.Admits ending)
    (hfree : choice = .free → choice' = .free) : Derives choice' n s ts v := by
  induction h with
  | query _ _ _ _ ih₁ ih₂ ih₃ ih₄ => exact query ih₁ ih₂ ih₃ ih₄
  | star => exact star
  | item _ ih => exact item ih
  | table => exact table
  | join _ hk _ ih₁ ih₂ => exact join ih₁ hk ih₂
  | unconditional => exact unconditional
  | test hk _ ih => exact test hk ih
  | columns hk => exact columns hk
  | condition _ ih => exact condition ih
  | expression _ ih => exact expression ih
  | conjunction _ ih => exact conjunction ih
  | or _ _ ih₁ ih₂ => exact or ih₁ ih₂
  | comparison _ ih => exact comparison ih
  | and _ _ ih₁ ih₂ => exact and ih₁ ih₂
  | operand _ ih => exact operand ih
  | tail _ ha _ ih₁ ih₂ => exact tail ih₁ (hadmits _ ha) ih₂
  | compare _ ih => exact compare ih
  | between _ _ ih₁ ih₂ => exact between ih₁ ih₂
  | inList _ ih => exact inList ih
  | inQuery _ ih => exact inQuery ih
  | like _ ih => exact like ih
  | isNull negated => exact isNull negated
  | literal hd => exact literal hd
  | column => exact column
  | call _ ih => exact call ih
  | subquery _ ih => exact subquery ih
  | paren _ ih => exact paren ih
  | hasRows _ ih => exact hasRows ih
  | hasNoRows _ ih => exact hasNoRows ih
  | not _ he ih => exact not ih fun hne => he fun hc => hne (hfree hc)
  | noArguments => exact noArguments
  | starArgument => exact starArgument
  | arguments _ ih => exact arguments ih
  | one _ ih => exact one ih
  | more _ _ ih₁ ih₂ => exact more ih₁ ih₂
  | absent => exact absent
  | present _ ih => exact present ih

theorem joined_of_longest (h : Derives .longest n s ts v) : Derives .joined n s ts v :=
  h.loosen (fun _ _ => nofun) nofun

/-- A phrase nests no deeper than it is long: each expression inside another begins behind
the token that leads to it. -/
theorem within_length (h : Derives choice n s ts v) : Derives choice ts.length s ts v := by
  induction h with
  | query _ _ _ _ ih₁ ih₂ ih₃ ih₄ =>
    exact query (ih₁.mono (by simp; omega)) (ih₂.mono (by simp; omega)) (ih₃.mono (by simp; omega))
      (ih₄.mono (by simp; omega))
  | star => exact star
  | item _ ih => exact item (ih.mono (by simp))
  | table => exact table
  | join _ hk _ ih₁ ih₂ =>
    exact join (ih₁.mono (by simp)) hk (ih₂.mono (by simp; omega))
  | unconditional => exact unconditional
  | test hk _ ih => exact test hk (ih.mono (by simp))
  | columns hk => exact columns hk
  | condition _ ih => exact condition ih
  | expression _ ih => exact expression ih
  | conjunction _ ih => exact conjunction ih
  | @or _ ts _ us _ _ _ ih₁ ih₂ =>
    have hlength : (ts ++ .keyword .OR :: us).length = ts.length + us.length + 1 := by simp; omega
    rw [hlength]
    exact or (ih₁.mono (by omega)) (ih₂.mono (by omega))
  | comparison _ ih => exact comparison ih
  | @and _ _ ts _ us _ _ _ ih₁ ih₂ =>
    have hlength : (ts ++ .keyword .AND :: us).length = ts.length + us.length + 1 := by simp; omega
    rw [hlength]
    exact and (ih₁.mono (by omega)) (ih₂.mono (by omega))
  | operand _ ih => exact operand ih
  | tail _ ha _ ih₁ ih₂ => exact tail (ih₁.mono (by simp)) ha (ih₂.mono (by simp))
  | compare _ ih => exact compare ih
  | @between _ _ _ negated us _ vs _ _ _ ih₁ ih₂ =>
    have hlow := ih₁.mono (Nat.le_add_right us.length vs.length)
    have hhigh := ih₂.mono (Nat.le_add_left vs.length us.length)
    exact (between hlow hhigh).mono (by simp; omega)
  | inList _ ih => exact (inList ih).mono (by simp [enclose]; omega)
  | inQuery _ ih => exact (inQuery ih).mono (by simp [enclose]; omega)
  | like _ ih => exact (like ih).mono (by simp)
  | isNull negated => exact isNull negated
  | literal hd => exact literal hd
  | @column _ c =>
    have hlength : 0 + 1 ≤ c.tokens.length := by
      obtain ⟨_ | _, _⟩ := c <;> simp [ColumnRef.tokens, qualifiedTokens]
    exact column.mono hlength
  | call _ ih => exact (call ih).mono (by simp [enclose])
  | subquery _ ih => exact (subquery ih).mono (by simp [enclose])
  | paren _ ih => exact (paren ih).mono (by simp [enclose])
  | hasRows _ ih => exact (hasRows ih).mono (by simp [enclose])
  | hasNoRows _ ih => exact (hasNoRows ih).mono (by simp [enclose])
  | not _ he ih => exact not ih he
  | noArguments => exact noArguments
  | starArgument => exact starArgument
  | arguments _ ih => exact arguments ih
  | one _ ih => exact one ih
  | more _ _ ih₁ ih₂ => exact more (ih₁.mono (by simp)) (ih₂.mono (by simp; omega))
  | absent => exact absent
  | present _ ih => exact present (ih.mono (by simp))

end Derives

/-! ### Longer operands -/

/-- The phrases that end in the operand of a `NOT`. -/
def Symbol.isAjar : Symbol → Bool
  | comparison .ajar => true
  | operand .ajar => true
  | tail .ajar => true
  | _ => false

/-- A tail behind the operand of a `NOT` goes into that operand. -/
theorem Derives.absorb (h : Derives .longest n s ts v) (hs : s.isAjar = true) {ending : Ending}
    {t : Tail} (ht : Derives .longest m (.tail ending) us t) :
    ∃ k v', Derives .longest k s (ts ++ us) v' := by
  induction h with
  | @operand _ ending _ _ _ ih =>
    cases ending with
    | closed => cases hs
    | ajar =>
      obtain ⟨k, e, hd⟩ := ih rfl
      exact ⟨k, e, hd.operand⟩
  | @tail n _ ending _ l _ _ hl hadmits _ _ ih =>
    cases ending with
    | closed => cases hs
    | ajar =>
      obtain ⟨k, t', hd⟩ := ih rfl
      have hwhole := (hl.mono (Nat.le_max_left n k)).tail hadmits (hd.mono (Nat.le_max_right n k))
      exact ⟨_, _, by simpa using hwhole⟩
  | @compare _ ending _ _ _ _ ih =>
    cases ending with
    | closed => cases hs
    | ajar =>
      obtain ⟨k, r, hd⟩ := ih rfl
      exact ⟨k + 1, _, hd.compare⟩
  | @between n _ ending' negated lows low highs _ hlow _ _ ih =>
    cases ending' with
    | closed => cases hs
    | ajar =>
      obtain ⟨k, high, hd⟩ := ih rfl
      have hwhole : Derives .longest (max n k + 1) (.tail .ajar)
          (notTokens negated ++ .keyword .BETWEEN :: (lows ++ .keyword .AND :: (highs ++ us)))
          (.between low high negated) :=
        (hlow.mono (Nat.le_max_left n k)).between (hd.mono (Nat.le_max_right n k))
      exact ⟨_, _, by simpa using hwhole⟩
  | @like _ ending negated patterns _ _ ih =>
    cases ending with
    | closed => cases hs
    | ajar =>
      obtain ⟨k, pattern, hd⟩ := ih rfl
      have hwhole : Derives .longest (k + 1) (.tail .ajar)
          (notTokens negated ++ .keyword .LIKE :: (patterns ++ us)) (.like pattern negated) :=
        hd.like
      exact ⟨_, _, by simpa using hwhole⟩
  | @not n ending ts e hd hexists ih =>
    have hhead : (ts ++ us).head? ≠ some (.keyword .EXISTS) := by
      rw [Completes.head?_append hd.completes]
      exact hexists nofun
    cases ending with
    | closed =>
      have hwhole := (hd.mono (Nat.le_max_left n m)).tail (fun _ => rfl)
        (ht.mono (Nat.le_max_right n m))
      exact ⟨_, _, hwhole.not fun _ => hhead⟩
    | ajar =>
      obtain ⟨k, e', hd'⟩ := ih rfl
      exact ⟨_, _, hd'.not fun _ => hhead⟩
  | _ => cases hs

/-- The phrases whose kind says nothing of their ending. -/
def Symbol.isWhole : Symbol → Bool
  | comparison _ => false
  | operand _ => false
  | tail _ => false
  | list s => s.isWhole
  | clause _ s => s.isWhole
  | _ => true

/-- The tokens are a phrase of the kind for the reading in which every `NOT` reaches as far
as it can, where the phrase may have another ending. -/
def Reached : Symbol → List Token → Prop
  | .comparison _, ts => ∃ n ending e, Derives .longest n (.comparison ending) ts e
  | .operand _, ts => ∃ n ending e, Derives .longest n (.operand ending) ts e
  | .tail _, ts => ∃ n ending t, Derives .longest n (.tail ending) ts t
  | .list s, ts => s.isWhole = true → ∃ n vs, Derives .longest n (.list s) ts vs
  | .clause k s, ts => s.isWhole = true → ∃ n o, Derives .longest n (.clause k s) ts o
  | s, ts => ∃ n v, Derives .longest n s ts v

theorem Reached.of_isWhole (h : Reached s ts) (hs : s.isWhole = true) :
    ∃ n v, Derives .longest n s ts v := by
  cases s <;> first | exact h | exact h hs | cases hs

/-- What is derived with a shorter `NOT` is derived with the longest. -/
theorem Derives.reached (h : Derives .joined n s ts v) : Reached s ts := by
  induction h with
  | query _ _ _ _ ih₁ ih₂ ih₃ ih₄ =>
    obtain ⟨n₁, _, h₁⟩ := ih₁ rfl
    obtain ⟨n₂, _, h₂⟩ := ih₂ rfl
    obtain ⟨n₃, _, h₃⟩ := ih₃ rfl
    obtain ⟨n₄, _, h₄⟩ := ih₄ rfl
    exact ⟨max (max n₁ n₂) (max n₃ n₄), _, query (h₁.mono (by omega)) (h₂.mono (by omega))
      (h₃.mono (by omega)) (h₄.mono (by omega))⟩
  | star => exact ⟨0, _, star⟩
  | item _ ih =>
    obtain ⟨n, _, h⟩ := ih
    exact ⟨n, _, h.item⟩
  | table => exact ⟨0, _, table⟩
  | join _ hk _ ih₁ ih₂ =>
    obtain ⟨n₁, _, h₁⟩ := ih₁
    obtain ⟨n₂, _, h₂⟩ := ih₂
    exact ⟨_, _, (h₁.mono (Nat.le_max_left n₁ n₂)).join hk (h₂.mono (Nat.le_max_right n₁ n₂))⟩
  | unconditional => exact ⟨0, _, unconditional⟩
  | test hk _ ih =>
    obtain ⟨n, _, h⟩ := ih
    exact ⟨n, _, h.test hk⟩
  | columns hk => exact ⟨0, _, columns hk⟩
  | condition _ ih =>
    obtain ⟨n, _, h⟩ := ih
    exact ⟨n, _, h.condition⟩
  | expression _ ih =>
    obtain ⟨n, _, h⟩ := ih
    exact ⟨n, _, h.expression⟩
  | conjunction _ ih =>
    obtain ⟨n, _, h⟩ := ih
    exact ⟨n, _, h.conjunction⟩
  | or _ _ ih₁ ih₂ =>
    obtain ⟨n₁, _, h₁⟩ := ih₁
    obtain ⟨n₂, _, h₂⟩ := ih₂
    exact ⟨max n₁ n₂ + 1, _, (h₁.mono (by omega)).or (h₂.mono (by omega))⟩
  | comparison _ ih =>
    obtain ⟨n, _, _, h⟩ := ih
    exact ⟨n, _, h.comparison⟩
  | and _ _ ih₁ ih₂ =>
    obtain ⟨n₁, _, h₁⟩ := ih₁
    obtain ⟨n₂, _, _, h₂⟩ := ih₂
    exact ⟨max n₁ n₂ + 1, _, (h₁.mono (by omega)).and (h₂.mono (by omega))⟩
  | operand _ ih =>
    obtain ⟨n, ending, _, h⟩ := ih
    exact ⟨n, ending, _, h.operand⟩
  | tail _ _ _ ih₁ ih₂ =>
    obtain ⟨n₁, ending, _, h₁⟩ := ih₁
    obtain ⟨n₂, _, _, h₂⟩ := ih₂
    cases ending with
    | closed =>
      have hwhole := (h₁.mono (Nat.le_max_left n₁ n₂)).tail (fun _ => rfl)
        (h₂.mono (Nat.le_max_right n₁ n₂))
      exact ⟨_, _, _, hwhole⟩
    | ajar =>
      obtain ⟨k, _, hwhole⟩ := h₁.absorb rfl h₂
      exact ⟨k, .ajar, _, hwhole⟩
  | compare _ ih =>
    obtain ⟨n, ending, _, h⟩ := ih
    exact ⟨_, ending, _, h.compare⟩
  | between _ _ ih₁ ih₂ =>
    obtain ⟨n₁, _, _, h₁⟩ := ih₁
    obtain ⟨n₂, ending, _, h₂⟩ := ih₂
    have hlow := h₁.mono (Nat.le_max_left n₁ n₂)
    have hhigh := h₂.mono (Nat.le_max_right n₁ n₂)
    exact ⟨_, ending, _, hlow.between hhigh⟩
  | inList _ ih =>
    obtain ⟨n, _, h⟩ := ih rfl
    exact ⟨_, .closed, _, h.inList⟩
  | inQuery _ ih =>
    obtain ⟨n, _, h⟩ := ih
    exact ⟨_, .closed, _, h.inQuery⟩
  | like _ ih =>
    obtain ⟨n, ending, _, h⟩ := ih
    exact ⟨_, ending, _, h.like⟩
  | isNull negated => exact ⟨1, .closed, _, isNull negated⟩
  | literal hd => exact ⟨1, .closed, _, literal hd⟩
  | column => exact ⟨1, .closed, _, column⟩
  | call _ ih =>
    obtain ⟨n, _, h⟩ := ih
    exact ⟨_, .closed, _, h.call⟩
  | subquery _ ih =>
    obtain ⟨n, _, h⟩ := ih
    exact ⟨_, .closed, _, h.subquery⟩
  | paren _ ih =>
    obtain ⟨n, _, h⟩ := ih
    exact ⟨_, .closed, _, h.paren⟩
  | hasRows _ ih =>
    obtain ⟨n, _, h⟩ := ih
    exact ⟨_, .closed, _, h.hasRows⟩
  | hasNoRows _ ih =>
    obtain ⟨n, _, h⟩ := ih
    exact ⟨_, .closed, _, h.hasNoRows⟩
  | not _ hexists ih =>
    obtain ⟨n, ending, _, h⟩ := ih
    exact ⟨_, .ajar, _, h.not fun _ => hexists nofun⟩
  | noArguments => exact ⟨0, _, noArguments⟩
  | starArgument => exact ⟨0, _, starArgument⟩
  | arguments _ ih =>
    obtain ⟨n, _, h⟩ := ih rfl
    exact ⟨n, _, h.arguments⟩
  | one _ ih =>
    intro hs
    obtain ⟨n, _, h⟩ := ih.of_isWhole hs
    exact ⟨n, _, h.one⟩
  | more _ _ ih₁ ih₂ =>
    intro hs
    obtain ⟨n₁, _, h₁⟩ := ih₁.of_isWhole hs
    obtain ⟨n₂, _, h₂⟩ := ih₂ hs
    exact ⟨_, _, (h₁.mono (Nat.le_max_left n₁ n₂)).more (h₂.mono (Nat.le_max_right n₁ n₂))⟩
  | absent => exact fun _ => ⟨0, _, absent⟩
  | present _ ih =>
    intro hs
    obtain ⟨n, _, h⟩ := ih.of_isWhole hs
    exact ⟨n, _, h.present⟩

end Grammar
end QueryCanon
