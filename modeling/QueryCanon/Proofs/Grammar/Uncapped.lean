/-
The grammar without a limit is the grammar with the limit left out.

Two readers `Agree` below a number of tokens if they come to the same on shorter lists.  An
expression and the ones nested in it begin one token apart at least, so the expressions of
two limits agree below both of them.  Hence the equation `uncapped_expression`: without a
limit, an expression is one more nested reader around the same grammar, on any tokens.
-/
import QueryCanon.Grammar.Uncapped
import QueryCanon.Proofs.Grammar.Limit

namespace QueryCanon
namespace Grammar

open Reader

variable {α β : Type} {k n m : Nat} {ts us : List Token}

/-- On `ts` the two readers come to the same, and meet no limit. -/
structure AgreeAt (r r' : Reader α) (ts : List Token) : Prop where
  read : r.read ts = r'.read ts
  descents : r.descents ts = r'.descents ts
  notDeep : ∀ rest, r.read ts ≠ .failed .tooDeep rest

/-- The two readers come to the same on fewer than `k` tokens, and meet no limit there. -/
def Agree (k : Nat) (r r' : Reader α) : Prop := ∀ ts, ts.length < k → AgreeAt r r' ts

/-- A reader is all in what it reads and where it descends. -/
theorem eq_of_agreeAt {r r' : Reader α} (h : ∀ ts, AgreeAt r r' ts) : r = r' := by
  ext1
  · exact funext fun ts => (h ts).read
  · exact funext fun ts => (h ts).descents
  · funext limit ts c
    rw [r.walk_eq, r'.walk_eq, (h _).read, (h _).descents]

theorem AgreeAt.symm {r r' : Reader α} (h : AgreeAt r r' ts) : AgreeAt r' r ts :=
  ⟨h.read.symm, h.descents.symm, fun rest => h.read ▸ h.notDeep rest⟩

theorem AgreeAt.trans {r r' r'' : Reader α} (h : AgreeAt r r' ts) (h' : AgreeAt r' r'' ts) :
    AgreeAt r r'' ts :=
  ⟨h.read.trans h'.read, h.descents.trans h'.descents, h.notDeep⟩

theorem AgreeAt.bind {r r' : Reader α} {f f' : α → Reader β} (h : AgreeAt r r' ts)
    (hf : ∀ a mid, r'.read ts = .done a mid → AgreeAt (f a) (f' a) mid) :
    AgreeAt (r >>= f) (r' >>= f') ts := by
  have hdeep := h.notDeep
  rw [h.read] at hdeep
  cases hr : r'.read ts with
  | failed fault mid =>
    rw [hr] at hdeep
    constructor
    · rw [read_bind, read_bind, h.read, hr]
    · rw [descents_bind, descents_bind, h.descents, h.read, hr]
    · rw [read_bind, h.read, hr]
      exact fun rest he => hdeep rest (by cases he; rfl)
  | done a mid =>
    have hmore := hf a mid hr
    constructor
    · rw [read_bind, read_bind, h.read, hr]
      exact hmore.read
    · rw [descents_bind, descents_bind, h.descents, h.read, hr]
      exact congrArg (r'.descents ts ++ ·) hmore.descents
    · rw [read_bind, h.read, hr]
      exact hmore.notDeep

theorem Agree.mono {r r' : Reader α} (h : Agree n r r') (hmn : m ≤ n) : Agree m r r' :=
  fun ts hts => h ts (Nat.lt_of_lt_of_le hts hmn)

/-- A round begins behind a token, so one token more is no matter. -/
theorem Agree.repeated {next next' : Token → Option (Reader α)}
    (h : ∀ t, Option.Rel (Agree k) (next t) (next' t)) :
    Agree (k + 1) (repeated next) (repeated next') := by
  intro ts hts
  induction hlength : ts.length using Nat.strongRecOn generalizing ts with
  | ind l ih =>
    have hstop : ∀ {ts}, Clear (fun t => (next t).isSome) ts →
        Clear (fun t => (next' t).isSome) ts →
        AgreeAt (Reader.repeated next) (Reader.repeated next') ts := by
      intro ts hclear hclear'
      constructor
      · rw [repeated_of_clear hclear, repeated_of_clear hclear']
      · rw [descents_repeated_of_clear hclear, descents_repeated_of_clear hclear']
      · rw [repeated_of_clear hclear]
        nofun
    cases ts with
    | nil => exact hstop (clear_nil _) (clear_nil _)
    | cons t us =>
      have hrel := h t
      generalize hn : next t = o at hrel
      generalize hn' : next' t = o' at hrel
      rw [List.length_cons] at hts hlength
      cases hrel with
      | none => exact hstop (by simp [hn]) (by simp [hn'])
      | @some r r' hr =>
        have hround : AgreeAt (repeated.round next r) (repeated.round next' r') us := by
          refine (hr us (by omega)).bind fun a mid hmid => ?_
          have hle := (read_suffix hmid).length_le
          exact (ih mid.length (by omega) mid (by omega) rfl).bind fun _ _ _ => ⟨rfl, rfl, nofun⟩
        constructor
        · rw [read_repeated_cons hn, read_repeated_cons hn', hround.read]
        · rw [descents_repeated_cons hn, descents_repeated_cons hn', hround.descents]
        · rw [read_repeated_cons hn]
          exact hround.notDeep

theorem Agree.dispatch {next next' : Token → Option (Reader α)} {wanted : Wanted}
    (h : ∀ t, Option.Rel (Agree k) (next t) (next' t)) :
    Agree (k + 1) (dispatch next wanted) (dispatch next' wanted) := by
  intro ts hts
  cases ts with
  | nil => exact ⟨rfl, rfl, nofun⟩
  | cons t us =>
    have hrel := h t
    generalize hn : next t = o at hrel
    generalize hn' : next' t = o' at hrel
    cases hrel with
    | none =>
      constructor <;> simp [Reader.dispatch, read_bind, descents_bind, takeIf, hn, hn', Reader.fail]
    | some hr =>
      have hmore := hr us (by simpa using hts)
      constructor <;> simp only [Reader.dispatch, read_bind, descents_bind, takeIf, hn, hn']
      · exact hmore.read
      · exact congrArg ([] ++ ·) hmore.descents
      · exact hmore.notDeep

theorem congruence_agree (k : Nat) : Congruence (Agree k) where
  flat h ts _ := ⟨rfl, rfl, h.notDeep ts⟩
  bind h hf ts hts := (h ts hts).bind fun a mid hmid =>
    hf a mid (Nat.lt_of_le_of_lt (read_suffix hmid).length_le hts)
  repeated h := (Agree.repeated h).mono (Nat.le_succ k)
  dispatch _ h := (Agree.dispatch h).mono (Nat.le_succ k)

/-- What is nested in an expression begins behind a token. -/
theorem Agree.operandAndTails {sub sub' : Level → Reader Expr}
    (h : ∀ level, Agree k (sub level) (sub' level)) (level : Level) :
    Agree (k + 1) (operandAndTails sub level) (operandAndTails sub' level) := by
  have hc := congruence_agree k
  have hc' := congruence_agree (k + 1)
  exact hc'.bind (Agree.dispatch (hc.operand h)) fun _ =>
    hc'.bind (Agree.repeated (hc.tail h level)) fun _ => hc'.pure _

theorem Agree.nested {r r' : Reader α} (h : Agree k r r') : Agree k (nested r) (nested r') := by
  intro ts hts
  have hat := h ts hts
  refine ⟨hat.read, ?_, hat.notDeep⟩
  show _ :: (r.descents ts).map _ = _ :: (r'.descents ts).map _
  rw [hat.descents]

theorem expression_agree (hn : k ≤ n) (hm : k ≤ m) (level : Level) :
    Agree k (expression n level) (expression m level) := by
  induction k generalizing n m level with
  | zero => exact fun ts hts => absurd hts (Nat.not_lt_zero _)
  | succ k ih =>
    obtain ⟨n, rfl⟩ : ∃ i, n = i + 1 := ⟨n - 1, by omega⟩
    obtain ⟨m, rfl⟩ : ∃ i, m = i + 1 := ⟨m - 1, by omega⟩
    exact (Agree.operandAndTails (fun level => ih (by omega) (by omega) level) level).nested

/-! ### No limit -/

/-- Readers of which two agree below their limits. -/
def Steady (r : Nat → Reader α) : Prop := ∀ k n m, k ≤ n → k ≤ m → Agree k (r n) (r m)

/-- Without a limit a reader is the one of any limit that the tokens are too short for. -/
theorem Steady.agree {r : Nat → Reader α} (h : Steady r) (n : Nat) :
    Agree n (uncapped r) (r n) := fun ts hts =>
  have hat := h (ts.length + 1) _ n (Nat.le_refl _) hts ts (Nat.lt_succ_self _)
  ⟨hat.read, hat.descents, hat.notDeep⟩

/-- Without a limit none is met. -/
theorem Steady.notDeep {r : Nat → Reader α} (h : Steady r) (rest : List Token) :
    (uncapped r).read ts ≠ .failed .tooDeep rest :=
  (h.agree (ts.length + 1) ts (Nat.lt_succ_self _)).notDeep rest

theorem steady_expression (level : Level) : Steady fun n => expression n level :=
  fun _ _ _ hn hm => expression_agree hn hm level

theorem unlimited_agree (n : Nat) (level : Level) :
    Agree n (unlimited level) (expression n level) :=
  (steady_expression level).agree n

/-- Without a limit an expression is one more nested reader of the same grammar. -/
theorem unlimited_eq (level : Level) :
    unlimited level = nested (operandAndTails unlimited level) := by
  refine eq_of_agreeAt fun ts => ?_
  have hself := unlimited_agree (ts.length + 1) level ts (Nat.lt_succ_self _)
  have hinner := (Agree.operandAndTails (unlimited_agree ts.length) level).nested ts
    (Nat.lt_succ_self _)
  exact hself.trans hinner.symm

/-- What is made in one way from the expressions of each limit. -/
def Uniform (make : (Level → Reader Expr) → Reader α) : Prop :=
  ∀ {k sub sub'}, (∀ level, Agree k (sub level) (sub' level)) → Agree k (make sub) (make sub')

variable {make : (Level → Reader Expr) → Reader α}

theorem Uniform.steady (h : Uniform make) : Steady fun n => make (expression n) :=
  fun _ _ _ hn hm => h fun level => expression_agree hn hm level

/-- It is made in that way without a limit. -/
theorem Uniform.uncapped_eq (h : Uniform make) :
    uncapped (fun n => make (expression n)) = make unlimited := by
  refine eq_of_agreeAt fun ts => ?_
  have hself := h.steady.agree (ts.length + 1) ts (Nat.lt_succ_self _)
  exact hself.trans (h (unlimited_agree (ts.length + 1)) ts (Nat.lt_succ_self _)).symm

/-- An expression and nothing else, for any way to read expressions. -/
def wholeExpressionOf (sub : Level → Reader Expr) : Reader Expr := do
  let e ← sub .disjunction
  endOfInput
  return e

/-- A query and nothing else but perhaps a semicolon, likewise. -/
def wholeStatementOf (sub : Level → Reader Expr) : Reader Query := do
  let q ← query sub
  let _ ← accept [.semicolon]
  endOfInput
  return q

theorem uniform_query : Uniform query := fun h => (congruence_agree _).query h

theorem uniform_wholeExpression : Uniform wholeExpressionOf := fun h =>
  (congruence_agree _).whole (h .disjunction)

theorem uniform_wholeStatement : Uniform wholeStatementOf := fun h =>
  (congruence_agree _).closed .semicolon ((congruence_agree _).query h)

theorem steady_statement : Steady statement := uniform_query.steady

theorem steady_wholeExpression : Steady wholeExpression := uniform_wholeExpression.steady

theorem steady_wholeStatement : Steady wholeStatement := uniform_wholeStatement.steady

theorem steady_script : Steady script := fun _ _ _ hn hm =>
  (congruence_agree _).script fun level => expression_agree hn hm level

theorem uncapped_statement : uncapped statement = query unlimited := uniform_query.uncapped_eq

theorem uncapped_wholeExpression : uncapped wholeExpression = wholeExpressionOf unlimited :=
  uniform_wholeExpression.uncapped_eq

end Grammar
end QueryCanon
