/-
The limit on nesting.

A smaller limit changes nothing but where it is met: the reader with the smaller limit
reads as the other does, until the other descends deeper than the smaller limit allows,
and stops there.
-/
import QueryCanon.Proofs.Grammar.Congruence
import QueryCanon.Proofs.Grammar.Reading

namespace QueryCanon
namespace Grammar

open Reader

variable {α β : Type} {n m : Nat} {ts us rest : List Token}

/-! ### Repetition, one round at a time -/

section Rounds

variable {next : Token → Option (Reader α)} {t : Token} {r : Reader α}

/-- What a round reads, and what is read behind it. -/
def repeated.round (next : Token → Option (Reader α)) (r : Reader α) : Reader (List α) := do
  let a ← r
  let more ← repeated next
  return a :: more

theorem read_repeated_cons (h : next t = some r) :
    (repeated next).read (t :: us) = (repeated.round next r).read us := by
  rw [repeated_cons h, repeated.round, read_bind]
  cases r.read us with
  | failed => rfl
  | done a mid =>
    dsimp only
    rw [read_bind]
    cases (repeated next).read mid <;> rfl

theorem descents_repeated_cons (h : next t = some r) :
    (repeated next).descents (t :: us) = (repeated.round next r).descents us := by
  show repeated.descents next (t :: us) = _
  rw [repeated.descents_cons h, repeated.round, descents_bind]
  congr 1
  cases r.read us with
  | failed fault mid => rfl
  | done a mid =>
    dsimp only
    rw [descents_bind]
    cases hm : (repeated next).read mid <;> simp [repeated]

theorem descents_repeated_of_clear (h : Clear (fun t => (next t).isSome) ts) :
    (repeated next).descents ts = [] := by
  show repeated.descents next ts = _
  cases ts with
  | nil => rw [repeated.descents]
  | cons t us =>
    have hn : next t = none := by simpa using h
    rw [repeated.descents, hn]

end Rounds

/-! ### A smaller limit -/

/-- On `ts`, `r` is `r'` with a limit of `n`: it fails at the first descent of `r'` that is
deeper, and without such a descent the two come to the same. -/
def CappedAt (n : Nat) (r r' : Reader α) (ts : List Token) : Prop :=
  match (r'.descents ts).find? fun d => n < d.depth with
  | none => r.read ts = r'.read ts
  | some d => ∃ rest, r.read ts = .failed .tooDeep rest ∧ rest.length = d.left

/-- `r` is `r'` with a limit of `n`. -/
def Capped (n : Nat) (r r' : Reader α) : Prop := ∀ ts, CappedAt n r r' ts

theorem CappedAt.bind {r r' : Reader α} {f f' : α → Reader β} (h : CappedAt n r r' ts)
    (hf : ∀ a mid, r'.read ts = .done a mid → CappedAt n (f a) (f' a) mid) :
    CappedAt n (r >>= f) (r' >>= f') ts := by
  unfold CappedAt at h ⊢
  rw [descents_bind, List.find?_append]
  cases hfind : (r'.descents ts).find? fun d => n < d.depth with
  | some d =>
    rw [hfind] at h
    obtain ⟨rest, hread, hlength⟩ := h
    exact ⟨rest, by rw [read_bind, hread], hlength⟩
  | none =>
    rw [hfind] at h
    dsimp only at h
    rw [Option.none_or, read_bind, read_bind, h]
    cases hread : r'.read ts with
    | failed fault mid => rfl
    | done a mid => exact hf a mid hread

theorem CappedAt.of_flat {r : Reader α} (h : r.descents ts = []) : CappedAt n r r ts := by
  unfold CappedAt
  rw [h]
  rfl

theorem CappedAt.repeated {next next' : Token → Option (Reader α)}
    (h : ∀ t, Option.Rel (Capped n) (next t) (next' t)) (ts : List Token) :
    CappedAt n (repeated next) (repeated next') ts := by
  -- A round takes a token, so what is read behind it is shorter.
  induction hlength : ts.length using Nat.strongRecOn generalizing ts with
  | ind k ih =>
    have hstop : ∀ {ts}, Clear (fun t => (next t).isSome) ts →
        Clear (fun t => (next' t).isSome) ts →
        CappedAt n (Reader.repeated next) (Reader.repeated next') ts := by
      intro ts hclear hclear'
      unfold CappedAt
      rw [descents_repeated_of_clear hclear', repeated_of_clear hclear, repeated_of_clear hclear']
      rfl
    cases ts with
    | nil => exact hstop (clear_nil _) (clear_nil _)
    | cons t us =>
      have hrel := h t
      generalize hn : next t = o at hrel
      generalize hn' : next' t = o' at hrel
      cases hrel with
      | none => exact hstop (by simp [hn]) (by simp [hn'])
      | some hr =>
        unfold CappedAt
        rw [descents_repeated_cons hn', read_repeated_cons hn, read_repeated_cons hn']
        refine CappedAt.bind (hr us) fun a mid hmid => ?_
        refine CappedAt.bind (ih mid.length ?_ mid rfl) fun _ _ _ => .of_flat rfl
        have hle := (read_suffix hmid).length_le
        rw [← hlength, List.length_cons]
        omega

theorem CappedAt.dispatch {next next' : Token → Option (Reader α)} {wanted : Wanted}
    (h : ∀ t, Option.Rel (Capped n) (next t) (next' t)) (ts : List Token) :
    CappedAt n (dispatch next wanted) (dispatch next' wanted) ts := by
  cases ts with
  | nil => rfl
  | cons t us =>
    have hrel := h t
    generalize hn : next t = o at hrel
    generalize hn' : next' t = o' at hrel
    unfold CappedAt
    simp only [Reader.dispatch, read_bind, descents_bind, takeIf, hn, hn', List.nil_append]
    cases hrel with
    | none => rfl
    | some hr => exact hr us

theorem congruence_capped (n : Nat) : Congruence (Capped n) where
  flat h ts := .of_flat (h.descents ts)
  bind h hf ts := (h ts).bind fun a mid _ => hf a mid
  repeated h := CappedAt.repeated h
  dispatch _ h := CappedAt.dispatch h

/-- Nesting uses up one level on both sides. -/
theorem Capped.nested {r r' : Reader α} (h : Capped n r r') :
    Capped (n + 1) (nested r) (nested r') := by
  intro ts
  have hts := h ts
  have hdepth : (fun d : Descent => decide (n + 1 < d.depth + 1)) =
      fun d => decide (n < d.depth) := by
    simp
  have hfirst : decide (n + 1 < 1) = false := by simp
  unfold CappedAt at hts ⊢
  simp only [Reader.nested, List.find?_cons, hfirst, List.find?_map, Function.comp_def, hdepth]
  cases hfind : (r'.descents ts).find? fun d => n < d.depth with
  | none =>
    rw [hfind] at hts
    exact hts
  | some d =>
    rw [hfind] at hts
    exact hts

theorem expression_capped (h : n ≤ m) (level : Level) :
    Capped n (expression n level) (expression m level) := by
  induction n generalizing m level with
  | zero =>
    intro ts
    cases m with
    | zero => exact .of_flat rfl
    | succ m => exact ⟨ts, rfl, rfl⟩
  | succ n ih =>
    obtain ⟨m, rfl⟩ : ∃ k, m = k + 1 := ⟨m - 1, by omega⟩
    exact ((congruence_capped n).operandAndTails (fun level => ih (by omega) level) level).nested

theorem statement_capped (h : n ≤ m) : Capped n (statement n) (statement m) :=
  (congruence_capped n).query fun level => expression_capped h level

theorem wholeExpression_capped (h : n ≤ m) : Capped n (wholeExpression n) (wholeExpression m) :=
  (congruence_capped n).whole (expression_capped h .disjunction)

theorem wholeStatement_capped (h : n ≤ m) : Capped n (wholeStatement n) (wholeStatement m) :=
  (congruence_capped n).closed .semicolon (statement_capped h)

theorem script_capped (h : n ≤ m) : Capped n (script n) (script m) :=
  (congruence_capped n).script fun level => expression_capped h level

/-- A smaller limit gives the same or is met. -/
theorem Capped.read_eq_or {r r' : Reader α} (h : Capped n r r') (ts : List Token) :
    r.read ts = r'.read ts ∨ ∃ rest, r.read ts = .failed .tooDeep rest := by
  have hts := h ts
  unfold CappedAt at hts
  split at hts
  · exact .inl hts
  · obtain ⟨rest, hread, -⟩ := hts
    exact .inr ⟨rest, hread⟩

/-- The fault that reading fails with. -/
def Outcome.fault? : Outcome α → Option Fault
  | done _ _ => none
  | failed fault _ => some fault

/-- A fault other than the limit's is no matter of the limit. -/
theorem Capped.fault?_eq {r r' : Reader α} {fault : Fault} (h : Capped n r r')
    (hfault : (r.read ts).fault? = some fault) (hdeep : fault ≠ .tooDeep) :
    (r'.read ts).fault? = some fault := by
  rcases h.read_eq_or ts with heq | ⟨rest', hread⟩
  · rw [← heq, hfault]
  · rw [hread] at hfault
    cases hfault
    exact absurd rfl hdeep

/-- What is read within a limit is read within any greater one. -/
theorem Capped.read_mono {r r' : Reader α} {a : α} (h : Capped n r r')
    (hread : r.read ts = .done a rest) : r'.read ts = .done a rest := by
  rcases h.read_eq_or ts with heq | ⟨rest', hdeep⟩
  · rw [← heq, hread]
  · rw [hdeep] at hread
    cases hread

end Grammar
end QueryCanon
