/-
How deep a reading goes.

The descents of a reading are gradual: before there are `m + 2` nested readers there are
`m + 1`.  So the first descent beyond a limit is one level beyond it.  A reader with a limit
reads as the one without, until that one descends beyond the limit, and stops there.
-/
import QueryCanon.Proofs.Grammar.Uncapped

namespace QueryCanon
namespace Grammar

open Reader

variable {α : Type} {n m : Nat} {ts : List Token}

/-- What holds of no descents, and of descents one after another, holds of all that the
pieces of the grammar put together. -/
theorem congruence_descents {P : List Descent → Prop} (nil : P [])
    (append : ∀ {first more}, P first → P more → P (first ++ more)) :
    Congruence fun r _ => ∀ ts, P (r.descents ts) where
  flat h ts := by
    rw [h.descents]
    exact nil
  bind {_ _ r _ f _} hr hf ts := by
    rw [descents_bind]
    refine append (hr ts) ?_
    cases r.read ts with
    | failed fault rest => exact nil
    | done a rest => exact hf a rest
  repeated {_ next next'} h ts := by
    induction hlength : ts.length using Nat.strongRecOn generalizing ts with
    | ind k ih =>
      have hstop : ∀ {ts}, Clear (fun t => (next t).isSome) ts →
          P ((Reader.repeated next).descents ts) := by
        intro ts hclear
        rw [descents_repeated_of_clear hclear]
        exact nil
      cases ts with
      | nil => exact hstop (clear_nil _)
      | cons t us =>
        have hrel := h t
        generalize hn : next t = o at hrel
        generalize next' t = o' at hrel
        cases hrel with
        | none => exact hstop (by simp [hn])
        | @some r _ hr =>
          rw [descents_repeated_cons hn, repeated.round, descents_bind]
          refine append (hr us) ?_
          cases hread : r.read us with
          | failed fault mid => exact nil
          | done a mid =>
            dsimp only
            rw [descents_bind]
            have hle := (read_suffix hread).length_le
            refine append (ih mid.length (by rw [← hlength, List.length_cons]; omega) mid rfl) ?_
            cases (Reader.repeated next).read mid <;> exact nil
  dispatch {_ next next'} wanted h ts := by
    cases ts with
    | nil => exact nil
    | cons t us =>
      have hrel := h t
      generalize hn : next t = o at hrel
      generalize next' t = o' at hrel
      simp only [Reader.dispatch, descents_bind, takeIf, hn]
      cases hrel with
      | none => exact nil
      | some hr => exact hr us

/-! ### One level at a time -/

/-- The first descent that is deeper than `m` is one level deeper, for every `m`. -/
def Gradual (descents : List Descent) : Prop :=
  ∀ m, (descents.find? fun d => m < d.depth) = descents.find? fun d => d.depth = m + 1

theorem congruence_gradual : Congruence fun r _ => ∀ ts, Gradual (r.descents ts) :=
  congruence_descents (fun _ => rfl) fun hfirst hmore m => by
    rw [List.find?_append, List.find?_append, hfirst, hmore]

theorem Gradual.nested {r : Reader α} (h : ∀ ts, Gradual (r.descents ts)) (ts : List Token) :
    Gradual ((nested r).descents ts) := by
  intro m
  simp only [Reader.nested]
  cases m with
  | zero => simp
  | succ m =>
    have hlt : (fun d : Descent => decide (m + 1 < d.depth + 1)) =
        fun d => decide (m < d.depth) := by
      simp
    have heq : (fun d : Descent => decide (d.depth + 1 = m + 1 + 1)) =
        fun d => decide (d.depth = m + 1) := by
      simp
    rw [List.find?_cons_of_neg (by simp), List.find?_cons_of_neg (by simp), List.find?_map,
      List.find?_map]
    dsimp only [Function.comp_def]
    rw [hlt, heq, h ts m]

theorem expression_gradual (n : Nat) (level : Level) (ts : List Token) :
    Gradual ((expression n level).descents ts) := by
  induction n generalizing level ts with
  | zero => exact fun _ => rfl
  | succ n ih =>
    exact Gradual.nested (@Congruence.operandAndTails _ (expression n) (expression n)
      congruence_gradual ih level) ts

theorem uncapped_statement_gradual (ts : List Token) :
    Gradual ((uncapped statement).descents ts) := by
  rw [descents_uncapped]
  exact @Congruence.query _ _ (expression 0) congruence_gradual (expression_gradual _) ts

theorem uncapped_wholeExpression_gradual (ts : List Token) :
    Gradual ((uncapped wholeExpression).descents ts) := by
  rw [descents_uncapped]
  exact @Congruence.whole _ _ _ (expression 0 .disjunction) congruence_gradual
    (expression_gradual _ .disjunction) ts

/-! ### The deepest point -/

/-- The greatest number of nested readers that are active at once while `r` reads. -/
def Reader.peak (r : Reader α) (ts : List Token) : Nat :=
  ((r.descents ts).map Descent.depth).foldr max 0

theorem foldr_max_le {depths : List Nat} : depths.foldr max 0 ≤ m ↔ ∀ d ∈ depths, d ≤ m := by
  induction depths with
  | nil => simp
  | cons d depths ih => rw [List.foldr_cons, Nat.max_le, ih, List.forall_mem_cons]

theorem peak_le {r : Reader α} : r.peak ts ≤ m ↔ ∀ d ∈ r.descents ts, d.depth ≤ m := by
  rw [Reader.peak, foldr_max_le, List.forall_mem_map]

theorem peak_le_iff_find? {r : Reader α} :
    r.peak ts ≤ m ↔ (r.descents ts).find? (fun d => m < d.depth) = none := by
  simp [peak_le, List.find?_eq_none]

/-- Below a limit the reader with it reads as the other. -/
theorem Capped.read_eq {r r' : Reader α} (h : Capped n r r') (hpeak : r'.peak ts ≤ n) :
    r.read ts = r'.read ts := by
  have hts := h ts
  unfold CappedAt at hts
  rwa [peak_le_iff_find?.mp hpeak] at hts

/-- Beyond the limit it stops. -/
theorem Capped.read_tooDeep {r r' : Reader α} (h : Capped n r r') (hpeak : n < r'.peak ts) :
    ∃ d rest, (r'.descents ts).find? (fun d => n < d.depth) = some d ∧
      r.read ts = .failed .tooDeep rest ∧ rest.length = d.left := by
  have hts := h ts
  unfold CappedAt at hts
  cases hfind : (r'.descents ts).find? fun d => n < d.depth with
  | none => exact absurd (peak_le_iff_find?.mpr hfind) (Nat.not_le.mpr hpeak)
  | some d =>
    rw [hfind] at hts
    obtain ⟨rest, hread, hlength⟩ := hts
    exact ⟨d, rest, rfl, hread, hlength⟩

/-! ### Limits and none -/

/-- Readers with a limit are the one without, up to the limit. -/
theorem capped_uncapped {r : Nat → Reader α} (hsteady : Steady r)
    (hcapped : ∀ {n m}, n ≤ m → Capped n (r n) (r m)) (n : Nat) : Capped n (r n) (uncapped r) := by
  intro ts
  have hat := hsteady.agree (max n (ts.length + 1)) ts (by omega)
  have hts := hcapped (Nat.le_max_left n (ts.length + 1)) ts
  unfold CappedAt at hts ⊢
  rwa [hat.read, hat.descents]

theorem statement_capped_uncapped (n : Nat) : Capped n (statement n) (uncapped statement) :=
  capped_uncapped steady_statement statement_capped n

theorem wholeExpression_capped_uncapped (n : Nat) :
    Capped n (wholeExpression n) (uncapped wholeExpression) :=
  capped_uncapped steady_wholeExpression wholeExpression_capped n

theorem script_capped_uncapped (n : Nat) : Capped n (script n) (uncapped script) :=
  capped_uncapped steady_script script_capped n

theorem wholeStatement_capped_uncapped (n : Nat) :
    Capped n (wholeStatement n) (uncapped wholeStatement) :=
  capped_uncapped steady_wholeStatement wholeStatement_capped n

end Grammar
end QueryCanon
