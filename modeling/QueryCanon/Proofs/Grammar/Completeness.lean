/-
What the grammar derives is read.

The main statement is `Derives.completes`.  A phrase is read back in front of any token
that could not have gone on with it.  For the phrases that a loop reads, sources and
expressions, the statement is about the loop: behind the phrase the reader is where it
would be had it begun with the tree of the phrase.
-/
import QueryCanon.Proofs.Grammar.Phrase

namespace QueryCanon
namespace Grammar

open Reader

/-! ### Tokens that go on with a phrase -/

/-- Behind a name these make it a call or a qualifier. -/
def isGlue : Token → Bool
  | .leftParen => true
  | .dot => true
  | _ => false

def extendsOperand : Ending → Token → Bool
  | .closed, t => isGlue t
  | .ajar, t => isGlue t || beginsComparison t

def extendsConjunction (t : Token) : Bool := isGlue t || beginsTail .conjunction t

def extendsExpression (t : Token) : Bool := isGlue t || beginsTail .disjunction t

def extendsItem (t : Token) : Bool := extendsExpression t || isName t

/-- The place of a token in the order of the clauses of a query; what ends a query comes
last. -/
def clauseRank : Token → Nat
  | .keyword .FROM => 1
  | .keyword .USING => 2
  | .keyword .WHERE => 3
  | .keyword .GROUP => 4
  | .keyword .HAVING => 5
  | .keyword .ORDER => 6
  | .keyword .LIMIT => 7
  | .rightParen => 8
  | .semicolon => 8
  | _ => 0

/-- Whatever comes next stands behind the `k`-th clause. -/
def After (k : Nat) (ts : List Token) : Prop := Clear (fun t => decide (clauseRank t ≤ k)) ts

variable {ts us rest : List Token} {k n : Nat}

theorem Clear.left {p q : Token → Bool} (h : Clear (fun t => p t || q t) rest) : Clear p rest :=
  h.mono fun t ht => by simp [ht]

theorem Clear.right {p q : Token → Bool} (h : Clear (fun t => p t || q t) rest) : Clear q rest :=
  h.mono fun t ht => by simp [ht]

theorem Clear.operand {ending : Ending} (h : Clear (extendsOperand .ajar) rest) :
    Clear (extendsOperand ending) rest := by
  cases ending with
  | closed => exact h.left
  | ajar => exact h

theorem Clear.comparison (h : Clear extendsConjunction rest) : Clear (extendsOperand .ajar) rest :=
  h.mono fun t ht => by
    simp only [extendsOperand, Bool.or_eq_true] at ht
    rcases ht with ht | ht <;> simp [extendsConjunction, beginsTail, ht]

theorem Clear.conjunction (h : Clear extendsExpression rest) : Clear extendsConjunction rest :=
  h.mono fun t ht => by
    simp only [extendsConjunction, Bool.or_eq_true] at ht
    rcases ht with ht | ht
    · simp [extendsExpression, ht]
    · simp only [beginsTail, Bool.or_eq_true] at ht
      simp only [extendsExpression, beginsTail, Bool.or_eq_true]
      exact .inr (.inr ht)

theorem rank_of_extendsItem {t : Token} (h : extendsItem t = true) : clauseRank t = 0 := by
  cases t with
  | keyword k => cases k <;> first | rfl | simp [extendsItem, extendsExpression, isGlue, beginsTail,
      beginsComparison, isName] at h
  | semicolon => simp [extendsItem, extendsExpression, isGlue, beginsTail, beginsComparison,
      isName] at h
  | rightParen => simp [extendsItem, extendsExpression, isGlue, beginsTail, beginsComparison,
      isName] at h
  | _ => rfl

theorem After.clear (h : After k rest) {p : Token → Bool}
    (hp : ∀ t, p t = true → clauseRank t = 0) : Clear p rest :=
  h.mono fun t ht => by simp [hp t ht]

theorem After.item (h : After k rest) : Clear extendsItem rest :=
  h.clear fun _ => rank_of_extendsItem

theorem After.expression (h : After k rest) : Clear extendsExpression rest := h.item.left

theorem After.mono {j : Nat} (h : After k rest) (hjk : j ≤ k) : After j rest :=
  Clear.mono h fun t ht => by
    simp only [decide_eq_true_eq] at ht ⊢
    omega

theorem After.head?_ne (h : After k rest) {t : Token} (ht : clauseRank t ≤ k) :
    rest.head? ≠ some t :=
  head?_ne_of_clear h (by simpa using ht)

theorem after_cons {t : Token} : After k (t :: rest) ↔ k < clauseRank t := by
  simp [After]

/-- A clause that may be missing, in front of later ones. -/
theorem after_scopeTokens (o : Option String) (h : After k rest) (hk : k < 2) :
    After k (scopeTokens o ++ rest) := by
  cases o with
  | none => exact h
  | some name => exact after_cons.mpr hk

theorem after_limitTokens (o : Option String) (h : After k rest) (hk : k < 7) :
    After k (limitTokens o ++ rest) := by
  cases o with
  | none => exact h
  | some text => exact after_cons.mpr hk

theorem after_byTokens (word : Keyword) (parts : List (List Token)) (h : After k rest)
    (hk : k < clauseRank (.keyword word)) : After k (byTokens word parts ++ rest) := by
  cases parts with
  | nil => exact h
  | cons part more => exact after_cons.mpr hk

theorem Derives.after_clause {choice : Choice} {word : Keyword} {s : Symbol} {o : Option s.Value}
    (hd : Derives choice n (.clause word s) ts o) (h : After k rest)
    (hk : k < clauseRank (.keyword word)) : After k (ts ++ rest) := by
  cases hd with
  | absent => exact h
  | present _ => exact after_cons.mpr hk

/-! ### Loops, from the middle on -/

/-- Reads the tails of an expression of which `left` has been read. -/
def tailsFrom (sub : Level → Reader Expr) (level : Level) (left : Expr) : Reader Expr := do
  let tails ← repeated (tail sub level)
  return tails.foldl (fun left tail => tail left) left

/-- Reads the joins of a source of which `left` has been read. -/
def joinsFrom (sub : Level → Reader Expr) (left : Source) : Reader Source := do
  let joins ← repeated (joined sub)
  return joins.foldl (fun left join => join left) left

variable {sub : Level → Reader Expr} {level : Level}

theorem tailsFrom_of_clear {left : Expr} (h : Clear (beginsTail level) rest) :
    (tailsFrom sub level left).read rest = .done left rest := by
  have hclass : (fun t => (tail sub level t).isSome) = beginsTail level :=
    funext (isSome_tail sub level)
  rw [← hclass] at h
  rw [tailsFrom, bind_done]
  exact ⟨[], rest, repeated_of_clear h, rfl⟩

theorem tailsFrom_cons {t : Token} {r : Reader (Expr → Expr)} {f : Expr → Expr} {left : Expr}
    (ht : tail sub level t = some r) (hr : r.read us = .done f rest) :
    (tailsFrom sub level left).read (t :: us) = (tailsFrom sub level (f left)).read rest := by
  rw [tailsFrom, tailsFrom, read_bind, read_bind, repeated_cons ht, hr]
  dsimp only
  cases (repeated (tail sub level)).read rest <;> rfl

theorem joinsFrom_cons {t : Token} {r : Reader (Source → Source)} {f : Source → Source}
    {left : Source} (ht : joined sub t = some r) (hr : r.read us = .done f rest) :
    (joinsFrom sub left).read (t :: us) = (joinsFrom sub (f left)).read rest := by
  rw [joinsFrom, joinsFrom, read_bind, read_bind, repeated_cons ht, hr]
  dsimp only
  cases (repeated (joined sub)).read rest <;> rfl

/-! ### The statement for each kind of phrase -/

/-- In front of a token outside `p`, the loop of an expression goes on from `e` behind
`ts`. -/
def Loops (n : Nat) (levels : List Level) (p : Token → Bool) (ts : List Token) (e : Expr) : Prop :=
  ∃ k, n = k + 1 ∧ ∀ level ∈ levels, ∀ rest, Clear p rest →
    (operandAndTails (expression k) level).read (ts ++ rest) =
      (tailsFrom (expression k) level e).read rest

def Completes (n : Nat) : (s : Symbol) → List Token → s.Value → Prop
  | .query, ts, q => ∀ rest, After 7 rest → (query (expression n)).read (ts ++ rest) = .done q rest
  | .item, ts, item => ∀ rest, Clear extendsItem rest →
    (selectItem (expression n)).read (ts ++ rest) = .done item rest
  | .source, ts, s => ∀ rest, Clear extendsItem rest →
    (source (expression n)).read (ts ++ rest) = (joinsFrom (expression n) s).read rest
  | .link kind, ts, c => ∀ rest, Clear extendsExpression rest →
    (conditionOf (expression n) kind).read (ts ++ rest) = .done c rest
  | .condition, ts, e => ∀ rest, Clear extendsExpression rest →
    (expression n .disjunction).read (ts ++ rest) = .done e rest
  | .expression, ts, e => ∀ rest, Clear extendsExpression rest →
    (expression n .disjunction).read (ts ++ rest) = .done e rest
  | .disjunction, ts, e => Loops n [.disjunction] extendsConjunction ts e
  | .conjunction, ts, e => Loops n [.conjunction, .disjunction] (extendsOperand .ajar) ts e
  | .comparison ending, ts, e =>
    Loops n [.comparison, .conjunction, .disjunction] (extendsOperand ending) ts e
  | .operand ending, ts, e => ∃ k, n = k + 1 ∧ ∀ rest, Clear (extendsOperand ending) rest →
    (dispatch (operand (expression k)) .expression).read (ts ++ rest) = .done e rest
  | .tail ending, ts, t => ∃ k, n = k + 1 ∧ ∃ head us r, ts = head :: us ∧
    comparisonTail (expression k) head = some r ∧ ∀ rest, Clear (extendsOperand ending) rest →
      r.read (us ++ rest) = .done (fun left => t.apply left) rest
  | .arguments, ts, args => ∀ rest,
    (arguments (expression n)).read (ts ++ .rightParen :: rest) = .done args rest
  | .list s, ts, vs => ∀ (p : Token → Bool) (item : Reader s.Value),
    (∀ ts v, Completes n s ts v → ∀ rest, Clear p rest → item.read (ts ++ rest) = .done v rest) →
    p .comma = false → ∀ rest, Clear p rest → rest.head? ≠ some .comma →
      (commaList item).read (ts ++ rest) = .done vs rest
  | .clause k s, ts, o => ∀ (p : Token → Bool) (r : Reader s.Value),
    (∀ ts v, Completes n s ts v → ∀ rest, Clear p rest → r.read (ts ++ rest) = .done v rest) →
    ∀ rest, Clear p rest → rest.head? ≠ some (.keyword k) →
      (introduced k r).read (ts ++ rest) = .done o rest

/-! ### Nested expressions, read to their end -/

theorem Loops.read {levels : List Level} {p : Token → Bool} {e : Expr} (h : Loops n levels p ts e)
    (hlevel : level ∈ levels) (hp : Clear p rest) (hclear : Clear (beginsTail level) rest) :
    (expression n level).read (ts ++ rest) = .done e rest := by
  obtain ⟨k, rfl, hread⟩ := h
  show (operandAndTails (expression k) level).read (ts ++ rest) = _
  rw [hread level hlevel rest hp, tailsFrom_of_clear hclear]

/-- The loop is also that of looser levels, in front of fewer tokens. -/
theorem Loops.loosen {levels levels' : List Level} {p q : Token → Bool} {e : Expr}
    (h : Loops n levels p ts e) (hlevels : ∀ level ∈ levels', level ∈ levels)
    (hclear : ∀ rest, Clear q rest → Clear p rest) : Loops n levels' q ts e := by
  obtain ⟨k, rfl, hread⟩ := h
  exact ⟨k, rfl, fun level hlevel rest hq =>
    hread level (hlevels level hlevel) rest (hclear rest hq)⟩

theorem Completes.operand {ending : Ending} {e : Expr} (h : Completes n (.operand ending) ts e)
    (hclear : Clear (extendsOperand ending) rest) :
    (expression n .operand).read (ts ++ rest) = .done e rest := by
  obtain ⟨k, rfl, hread⟩ := h
  show (operandAndTails (expression k) .operand).read (ts ++ rest) = _
  rw [operandAndTails, bind_done]
  have hnone : Clear (fun t => (tail (expression k) .operand t).isSome) rest := fun _ _ => rfl
  exact ⟨e, rest, hread rest hclear,
    bind_done.mpr ⟨[], rest, repeated_of_clear hnone, rfl⟩⟩

theorem Completes.comparison {ending : Ending} {e : Expr}
    (h : Completes n (.comparison ending) ts e) (hclear : Clear (extendsOperand .ajar) rest) :
    (expression n .comparison).read (ts ++ rest) = .done e rest :=
  Loops.read h (by simp) hclear.operand hclear.right

theorem Completes.conjunction {e : Expr} (h : Completes n .conjunction ts e)
    (hclear : Clear extendsConjunction rest) :
    (expression n .conjunction).read (ts ++ rest) = .done e rest :=
  Loops.read h (by simp) hclear.comparison hclear.right

theorem Completes.disjunction {e : Expr} (h : Completes n .disjunction ts e)
    (hclear : Clear extendsExpression rest) :
    (expression n .disjunction).read (ts ++ rest) = .done e rest :=
  Loops.read h (by simp) hclear.conjunction hclear.right

/-! ### Operands and tails -/

theorem extendsOperand_of_beginsComparison {t : Token} (h : beginsComparison t = true) :
    extendsOperand .closed t = false := by
  cases t <;> first | rfl | cases h

theorem tail_of_comparisonTail {t : Token} {r : Reader (Expr → Expr)}
    (h : comparisonTail sub t = some r) (hlevel : level ≠ .operand) :
    tail sub level t = some r := by
  have hbegins : beginsComparison t = true := by
    rw [← isSome_comparisonTail sub t, h]
    rfl
  have hand : andTail sub t = none := by
    rw [← Option.isNone_iff_eq_none, ← Option.not_isSome, isSome_andTail]
    cases t with
    | keyword k => cases k <;> first | rfl | cases hbegins
    | _ => rfl
  have hor : orTail sub t = none := by
    rw [← Option.isNone_iff_eq_none, ← Option.not_isSome, isSome_orTail]
    cases t with
    | keyword k => cases k <;> first | rfl | cases hbegins
    | _ => rfl
  cases level with
  | operand => exact absurd rfl hlevel
  | comparison => exact h
  | conjunction => rw [tail, hand, Option.none_or, h]
  | disjunction => rw [tail, hor, hand, Option.none_or, Option.none_or, h]

/-- The loop takes a tail behind a comparison. -/
theorem Completes.tail {ending ending' : Ending} {l : Expr} {t : Tail}
    (hl : Completes n (.comparison ending) ts l) (hclosed : ending = .closed)
    (ht : Completes n (.tail ending') us t) :
    Completes n (.comparison ending') (ts ++ us) (t.apply l) := by
  subst hclosed
  obtain ⟨k, rfl, hread⟩ := hl
  obtain ⟨_, hk, head, us, r, rfl, htail, hr⟩ := ht
  cases hk
  refine ⟨k, rfl, fun level hlevel rest hclear => ?_⟩
  have hbegins : beginsComparison head = true := by
    rw [← isSome_comparisonTail (expression k) head, htail]
    rfl
  have hglue : Clear (extendsOperand .closed) (head :: us ++ rest) := by
    simpa using extendsOperand_of_beginsComparison hbegins
  have htail' : Grammar.tail (expression k) level head = some r :=
    tail_of_comparisonTail htail (by rintro rfl; simp at hlevel)
  rw [List.append_assoc, hread level hlevel _ hglue, List.cons_append,
    tailsFrom_cons htail' (hr rest hclear)]

/-- The loop takes an `AND` behind a conjunction. -/
theorem Completes.and {ending : Ending} {l r : Expr} (hl : Completes (n + 1) .conjunction ts l)
    (hr : Completes n (.comparison ending) us r) :
    Completes (n + 1) .conjunction (ts ++ .keyword .AND :: us) (.and l r) := by
  obtain ⟨k, hk, hread⟩ := hl
  cases hk
  refine ⟨n, rfl, fun level hlevel rest hclear => ?_⟩
  have htail : Grammar.tail (expression n) level (.keyword .AND) =
      some (do let right ← expression n .comparison; return fun left => .and left right) := by
    cases level with
    | operand => simp at hlevel
    | comparison => simp at hlevel
    | conjunction => rfl
    | disjunction => rfl
  rw [List.append_assoc, hread level hlevel _ (by simp [extendsOperand, isGlue, beginsComparison]),
    List.cons_append, tailsFrom_cons htail]
  exact bind_done.mpr ⟨r, rest, hr.comparison hclear, rfl⟩

/-- The loop takes an `OR` behind a disjunction. -/
theorem Completes.or {l r : Expr} (hl : Completes (n + 1) .disjunction ts l)
    (hr : Completes n .conjunction us r) :
    Completes (n + 1) .disjunction (ts ++ .keyword .OR :: us) (.or l r) := by
  obtain ⟨k, hk, hread⟩ := hl
  cases hk
  refine ⟨n, rfl, fun level hlevel rest hclear => ?_⟩
  obtain rfl : level = .disjunction := by simpa using hlevel
  have htail : Grammar.tail (expression n) .disjunction (.keyword .OR) =
      some (do let right ← expression n .conjunction; return fun left => .or left right) := rfl
  rw [List.append_assoc,
    hread .disjunction hlevel _
      (by simp [extendsConjunction, isGlue, beginsTail, beginsComparison]),
    List.cons_append, tailsFrom_cons htail]
  exact bind_done.mpr ⟨r, rest, hr.conjunction hclear, rfl⟩

/-- A first operand begins a loop. -/
theorem Completes.chain {ending : Ending} {e : Expr} (h : Completes n (.operand ending) ts e) :
    Completes n (.comparison ending) ts e := by
  obtain ⟨k, rfl, hread⟩ := h
  refine ⟨k, rfl, fun level _ rest hclear => ?_⟩
  rw [operandAndTails, read_bind, hread rest hclear]
  rfl

theorem comparisonTail_comparison (op : Comparison) :
    comparisonTail sub op.token = some (compareTail sub op) := by
  cases op <;> rfl

theorem Completes.compare {ending : Ending} {op : Comparison} {r : Expr}
    (h : Completes n (.operand ending) us r) :
    Completes (n + 1) (.tail ending) (op.token :: us) (.compare op r) := by
  refine ⟨n, rfl, _, us, _, rfl, comparisonTail_comparison op, fun rest hclear => ?_⟩
  exact bind_done.mpr ⟨r, rest, h.operand hclear, rfl⟩

/-- A predicate with or without a `NOT` before it, in one statement. -/
theorem Completes.predicate {ending : Ending} {negated : Bool} {t : Token}
    {r : Reader (Expr → Expr)} {tail : Tail} (ht : predicateTail (expression n) negated t = some r)
    (hplain : comparisonTail (expression n) t = predicateTail (expression n) false t)
    (hr : ∀ rest, Clear (extendsOperand ending) rest →
      r.read (us ++ rest) = .done (fun left => tail.apply left) rest) :
    Completes (n + 1) (.tail ending) (notTokens negated ++ t :: us) tail := by
  cases negated with
  | false => exact ⟨n, rfl, t, us, r, rfl, hplain.trans ht, hr⟩
  | true =>
    refine ⟨n, rfl, .keyword .NOT, t :: us, _, rfl, rfl, fun rest hclear => ?_⟩
    exact dispatch_done.mpr ⟨t, us ++ rest, r, rfl, ht, hr rest hclear⟩

theorem Completes.between {ending ending' : Ending} {negated : Bool} {low high : Expr}
    {vs : List Token} (hlow : Completes n (.operand ending) us low)
    (hhigh : Completes n (.operand ending') vs high) :
    Completes (n + 1) (.tail ending')
      (notTokens negated ++ .keyword .BETWEEN :: (us ++ .keyword .AND :: vs))
      (.between low high negated) := by
  refine Completes.predicate rfl rfl fun rest hclear => ?_
  have hand : Clear (extendsOperand ending) (.keyword .AND :: (vs ++ rest)) := by
    cases ending <;> simp [extendsOperand, isGlue, beginsComparison]
  simp only [betweenTail, bind_done, expectKeyword_done]
  exact ⟨low, _, by simpa using hlow.operand hand, (), _, rfl, high, rest,
    hhigh.operand hclear, rfl⟩

theorem Completes.like {ending : Ending} {negated : Bool} {pattern : Expr}
    (h : Completes n (.operand ending) us pattern) :
    Completes (n + 1) (.tail ending) (notTokens negated ++ .keyword .LIKE :: us)
      (.like pattern negated) := by
  refine Completes.predicate rfl rfl fun rest hclear => ?_
  exact bind_done.mpr ⟨pattern, rest, h.operand hclear, rfl⟩

theorem Completes.isNull (negated : Bool) :
    Completes (n + 1) (.tail .closed) (.keyword .IS :: (notTokens negated ++ [.keyword .NULL]))
      (.isNull negated) := by
  refine ⟨n, rfl, .keyword .IS, _, nullTail, rfl, rfl, fun rest _ => ?_⟩
  unfold nullTail
  simp only [↓accept_bind_done, bind_done, expectKeyword_done, read_pure, Outcome.done.injEq]
  cases negated with
  | false => exact .inr ⟨by simp [notTokens], (), rest, rfl, rfl, rfl⟩
  | true => exact .inl ⟨_, rfl, (), rest, rfl, rfl, rfl⟩

/-! ### What an expression begins with -/

def beginsOperand : Token → Bool
  | .integer _ => true
  | .decimal _ => true
  | .string _ => true
  | .identifier _ => true
  | .keyword .TRUE => true
  | .keyword .FALSE => true
  | .keyword .NOT => true
  | .keyword .EXISTS => true
  | .leftParen => true
  | _ => false

theorem isSome_operand (sub : Level → Reader Expr) (t : Token) :
    (operand sub t).isSome = beginsOperand t := by
  cases t with
  | keyword k => cases k <;> rfl
  | _ => rfl

theorem begins_of_expression_done {e : Expr} (h : (expression n level).read ts = .done e rest) :
    ∃ t us, ts = t :: us ∧ beginsOperand t = true := by
  cases n with
  | zero => exact absurd h fail_not_done
  | succ n =>
    change (operandAndTails (expression n) level).read ts = .done e rest at h
    simp only [operandAndTails, bind_done, dispatch_done] at h
    obtain ⟨_, _, ⟨t, us, r, rfl, ht, -⟩, -⟩ := h
    exact ⟨t, us, rfl, by rw [← isSome_operand (expression n) t, ht]; rfl⟩

theorem head?_ne_of_expression_done {e : Expr} {t : Token}
    (h : (expression n level).read ts = .done e rest) (ht : beginsOperand t = false) :
    ts.head? ≠ some t := by
  obtain ⟨u, us, rfl, hu⟩ := begins_of_expression_done h
  rintro ⟨⟩
  rw [hu] at ht
  cases ht

theorem head?_ne_of_commaList_done {es : List Expr} {t : Token}
    (h : (commaList (expression n level)).read ts = .done es rest) (ht : beginsOperand t = false) :
    ts.head? ≠ some t := by
  obtain ⟨e, mid, he, -⟩ := commaList_done.mp h
  exact head?_ne_of_expression_done he ht

/-! ### Parentheses -/

theorem After.rightParen : After k (.rightParen :: rest) ↔ k < 8 := after_cons

theorem Completes.queryBody {q : Query} (h : Completes n .query us q) (rest : List Token)
    (hrest : After 7 rest) :
    ∃ vs, us ++ rest = .keyword .SELECT :: vs ∧
      (Grammar.queryBody (expression n)).read vs = .done q rest := by
  have hread := h rest hrest
  simp only [Grammar.query, bind_done, expectKeyword_done] at hread
  obtain ⟨_, vs, hvs, hbody⟩ := hread
  exact ⟨vs, hvs, hbody⟩

theorem Completes.list {es : List Expr} (h : Completes n (.list .expression) us es)
    (rest : List Token) :
    (commaList (expression n .disjunction)).read (us ++ .rightParen :: rest) =
      .done es (.rightParen :: rest) :=
  h extendsExpression (expression n .disjunction) (fun _ _ he => he) rfl _
    (clear_cons.mpr rfl) nofun

theorem Completes.inList {negated : Bool} {list : List Expr}
    (h : Completes n (.list .expression) us list) :
    Completes (n + 1) (.tail .closed) (notTokens negated ++ .keyword .IN :: enclose us)
      (.inList list negated) := by
  refine Completes.predicate rfl rfl fun rest _ => ?_
  have hread := h.list rest
  have hselect := head?_ne_of_commaList_done hread (t := .keyword .SELECT) rfl
  unfold inTail
  rw [inParens_done]
  refine ⟨us ++ .rightParen :: rest, by simp [enclose], ?_⟩
  rw [accept_bind_done]
  exact .inr ⟨hselect, bind_done.mpr ⟨list, _, hread, rfl⟩⟩

theorem Completes.inQuery {negated : Bool} {q : Query} (h : Completes n .query us q) :
    Completes (n + 1) (.tail .closed) (notTokens negated ++ .keyword .IN :: enclose us)
      (.inQuery q negated) := by
  refine Completes.predicate rfl rfl fun rest _ => ?_
  obtain ⟨vs, hvs, hbody⟩ := h.queryBody (.rightParen :: rest) (After.rightParen.mpr (by omega))
  unfold inTail
  rw [inParens_done]
  refine ⟨us ++ .rightParen :: rest, by simp [enclose], ?_⟩
  rw [accept_bind_done]
  exact .inl ⟨vs, hvs, bind_done.mpr ⟨q, _, hbody, rfl⟩⟩

theorem Completes.subquery {q : Query} (h : Completes n .query us q) :
    Completes (n + 1) (.operand .closed) (enclose us) (.subquery q) := by
  refine ⟨n, rfl, fun rest _ => ?_⟩
  obtain ⟨vs, hvs, hbody⟩ := h.queryBody (.rightParen :: rest) (After.rightParen.mpr (by omega))
  refine dispatch_done.mpr ⟨.leftParen, _, parenthesis (expression n), rfl, rfl, ?_⟩
  unfold parenthesis
  rw [enclosed_done, accept_bind_done]
  exact .inl ⟨vs, by simpa using hvs, bind_done.mpr ⟨q, _, hbody, rfl⟩⟩

theorem Completes.paren {e : Expr} (h : Completes n .expression us e) :
    Completes (n + 1) (.operand .closed) (enclose us) (.paren e) := by
  refine ⟨n, rfl, fun rest _ => ?_⟩
  have hread := h (.rightParen :: rest) (clear_cons.mpr rfl)
  have hselect := head?_ne_of_expression_done hread (t := .keyword .SELECT) rfl
  refine dispatch_done.mpr ⟨.leftParen, us ++ .rightParen :: rest, parenthesis (expression n),
    by simp [enclose], rfl, ?_⟩
  unfold parenthesis
  rw [enclosed_done, accept_bind_done]
  exact .inr ⟨hselect, bind_done.mpr ⟨e, _, hread, rfl⟩⟩

theorem Completes.rowTest {q : Query} (h : Completes n .query us q) (negated : Bool) :
    (Grammar.rowTest (expression n) negated).read (enclose us ++ rest) =
      .done (.hasRows q negated) rest := by
  have hread := h (.rightParen :: rest) (After.rightParen.mpr (by omega))
  refine bind_done.mpr ⟨q, rest, inParens_done.mpr ⟨us ++ .rightParen :: rest, ?_, hread⟩, rfl⟩
  simp [enclose]

theorem Completes.hasRows {q : Query} (h : Completes n .query us q) :
    Completes (n + 1) (.operand .closed) (.keyword .EXISTS :: enclose us) (.hasRows q false) :=
  ⟨n, rfl, fun rest _ =>
    dispatch_done.mpr ⟨.keyword .EXISTS, enclose us ++ rest, _, rfl, rfl, h.rowTest false⟩⟩

theorem Completes.hasNoRows {q : Query} (h : Completes n .query us q) :
    Completes (n + 1) (.operand .closed) (.keyword .NOT :: .keyword .EXISTS :: enclose us)
      (.hasRows q true) := by
  refine ⟨n, rfl, fun rest _ => ?_⟩
  refine dispatch_done.mpr ⟨.keyword .NOT, .keyword .EXISTS :: (enclose us ++ rest),
    negation (expression n), rfl, rfl, ?_⟩
  unfold negation
  rw [accept_bind_done]
  exact .inl ⟨_, rfl, h.rowTest true⟩

/-- A comparison is not empty, so what comes behind it does not change its first token. -/
theorem Completes.head?_append {ending : Ending} {e : Expr}
    (h : Completes n (.comparison ending) us e)
    (rest : List Token) : (us ++ rest).head? = us.head? := by
  obtain ⟨t, vs, hvs, -⟩ := begins_of_expression_done (h.comparison (clear_nil _))
  rw [List.append_nil] at hvs
  subst hvs
  rfl

theorem Completes.not {ending : Ending} {e : Expr} (h : Completes n (.comparison ending) us e)
    (hexists : us.head? ≠ some (.keyword .EXISTS)) :
    Completes (n + 1) (.operand .ajar) (.keyword .NOT :: us) e.negate := by
  refine ⟨n, rfl, fun rest hclear => ?_⟩
  have hread := h.comparison hclear
  have hhead : (us ++ rest).head? ≠ some (.keyword .EXISTS) := by
    rw [h.head?_append]
    exact hexists
  refine dispatch_done.mpr ⟨.keyword .NOT, us ++ rest, negation (expression n), rfl, rfl, ?_⟩
  unfold negation
  rw [accept_bind_done]
  exact .inr ⟨hhead, bind_done.mpr ⟨e, rest, hread, rfl⟩⟩

theorem Completes.literal {t : Token} {l : Literal} (h : Denotes t l) :
    Completes (n + 1) (.operand .closed) [t] (.literal l) := by
  refine ⟨n, rfl, fun rest _ => ?_⟩
  cases h <;> exact dispatch_done.mpr ⟨_, rest, _, rfl, rfl, rfl⟩

theorem Completes.column {c : ColumnRef} :
    Completes (n + 1) (.operand .closed) c.tokens (.column c) := by
  refine ⟨n, rfl, fun rest hclear => ?_⟩
  obtain ⟨_ | qualifier, name⟩ := c
  · refine dispatch_done.mpr ⟨.identifier name, rest, named (expression n) name, rfl, rfl, ?_⟩
    unfold named
    rw [accept_bind_done]
    refine .inr ⟨head?_ne_of_clear hclear rfl, ?_⟩
    simp only [Bool.false_eq_true, if_false]
    rw [accept_bind_done]
    exact .inr ⟨head?_ne_of_clear hclear rfl, rfl⟩
  · refine dispatch_done.mpr ⟨.identifier qualifier, .dot :: .identifier name :: rest,
      named (expression n) qualifier, rfl, rfl, ?_⟩
    unfold named
    rw [accept_bind_done]
    refine .inr ⟨nofun, ?_⟩
    simp only [Bool.false_eq_true, if_false]
    rw [accept_bind_done]
    exact .inl ⟨_, rfl, bind_done.mpr ⟨name, rest, identifier_done.mpr rfl, rfl⟩⟩

theorem Completes.call {name : String} {args : List Expr} (h : Completes n .arguments us args) :
    Completes (n + 1) (.operand .closed) (.identifier name :: enclose us) (.call name args) := by
  refine ⟨n, rfl, fun rest _ => ?_⟩
  refine dispatch_done.mpr
    ⟨.identifier name, enclose us ++ rest, named (expression n) name, rfl, rfl, ?_⟩
  unfold named
  rw [accept_bind_done]
  exact .inl ⟨us ++ .rightParen :: rest, by simp [enclose], bind_done.mpr ⟨args, rest, h rest, rfl⟩⟩

theorem Completes.noArguments : Completes n .arguments [] [] := by
  intro rest
  unfold arguments
  rw [accept_bind_done]
  exact .inl ⟨rest, rfl, rfl⟩

theorem Completes.starArgument : Completes n .arguments [.star] [.star] := by
  intro rest
  unfold arguments
  rw [accept_bind_done]
  refine .inr ⟨nofun, enclosed_done.mpr ?_⟩
  rw [accept_bind_done]
  exact .inl ⟨.rightParen :: rest, rfl, rfl⟩

theorem Completes.arguments {es : List Expr} (h : Completes n (.list .expression) us es) :
    Completes n .arguments us es := by
  intro rest
  have hread := h.list rest
  unfold Grammar.arguments
  rw [accept_bind_done]
  refine .inr ⟨head?_ne_of_commaList_done hread rfl, enclosed_done.mpr ?_⟩
  rw [accept_bind_done]
  exact .inr ⟨head?_ne_of_commaList_done hread rfl, hread⟩

/-! ### Lists and clauses -/

theorem Completes.one {s : Symbol} {v : s.Value} (h : Completes n s ts v) :
    Completes n (.list s) ts [v] := by
  intro p item hitem _ rest hclear hend
  exact commaList_done.mpr ⟨v, rest, hitem ts v h rest hclear, .inl ⟨hend, rfl, rfl⟩⟩

theorem Completes.more {s : Symbol} {v : s.Value} {vs : List s.Value} (h : Completes n s ts v)
    (hs : Completes n (.list s) us vs) :
    Completes n (.list s) (ts ++ .comma :: us) (v :: vs) := by
  intro p item hitem hcomma rest hclear hend
  have hfirst := hitem ts v h (.comma :: (us ++ rest)) (clear_cons.mpr hcomma)
  have hmore := hs p item hitem hcomma rest hclear hend
  rw [List.append_assoc]
  exact commaList_done.mpr ⟨v, _, hfirst, .inr ⟨us ++ rest, vs, rfl, hmore, rfl⟩⟩

theorem Completes.absent {s : Symbol} {word : Keyword} :
    Completes n (.clause word s) [] none := by
  intro p r _ rest _ hword
  exact introduced_done.mpr (.inr ⟨hword, rfl, rfl⟩)

theorem Completes.present {s : Symbol} {word : Keyword} {v : s.Value} (h : Completes n s ts v) :
    Completes n (.clause word s) (.keyword word :: ts) (some v) := by
  intro p r hr rest hclear _
  exact introduced_done.mpr (.inl ⟨ts ++ rest, v, rfl, hr ts v h rest hclear, rfl⟩)

/-! ### Selected items -/

theorem Clear.optionalName {label : Option String} (h : Clear extendsItem rest) :
    Clear extendsExpression (optionalName label ++ rest) := by
  cases label with
  | none => exact h.left
  | some name => exact clear_cons.mpr rfl

theorem Completes.star {label : Option String} :
    Completes n .item (.star :: optionalName label) ⟨.star, label⟩ := by
  intro rest hclear
  have hlabel : Grammar.label.read (optionalName label ++ rest) = .done label rest :=
    label_done.mpr ⟨rfl, fun _ => hclear.right⟩
  unfold selectItem
  rw [accept_bind_done]
  exact .inl ⟨_, rfl, bind_done.mpr ⟨.star, _, rfl, bind_done.mpr ⟨label, rest, hlabel, rfl⟩⟩⟩

theorem Completes.item {e : Expr} {label : Option String} (h : Completes n .expression ts e) :
    Completes n .item (ts ++ optionalName label) ⟨e, label⟩ := by
  intro rest hclear
  have hread := h (optionalName label ++ rest) hclear.optionalName
  have hlabel : Grammar.label.read (optionalName label ++ rest) = .done label rest :=
    label_done.mpr ⟨rfl, fun _ => hclear.right⟩
  rw [List.append_assoc]
  unfold selectItem
  rw [accept_bind_done]
  exact .inr ⟨head?_ne_of_expression_done hread rfl,
    bind_done.mpr ⟨e, _, hread, bind_done.mpr ⟨label, rest, hlabel, rfl⟩⟩⟩

/-! ### Sources -/

theorem Completes.unconditional : Completes n (.link .cross) [] none := fun _ _ => rfl

theorem conditionOf_of_ne {kind : JoinKind} (h : kind ≠ .cross) :
    conditionOf sub kind = some <$> joinCondition sub := by
  cases kind with
  | cross => exact absurd rfl h
  | _ => exact bind_pure_comp some (joinCondition sub)

theorem Completes.test {kind : JoinKind} {e : Expr} (hk : kind ≠ .cross)
    (h : Completes n .expression ts e) :
    Completes n (.link kind) (.keyword .ON :: ts) (some (.test e)) := by
  intro rest hclear
  rw [conditionOf_of_ne hk, map_done]
  refine ⟨.test e, ?_, rfl⟩
  unfold joinCondition
  rw [accept_bind_done]
  exact .inl ⟨ts ++ rest, rfl, bind_done.mpr ⟨e, rest, h rest hclear, rfl⟩⟩

theorem Completes.columns {kind : JoinKind} {names : List String} (hk : kind ≠ .cross)
    (hne : names ≠ []) :
    Completes n (.link kind)
      (.keyword .USING :: enclose (commaSeparated (names.map fun x => [.identifier x])))
      (some (.columns names)) := by
  intro rest hclear
  have hnames : (commaList (identifier .columnName)).read
      (commaSeparated (names.map fun x => [.identifier x]) ++ .rightParen :: rest) =
        .done names (.rightParen :: rest) :=
    read_commaList (p := fun _ => false) (fun _ => identifier_done.mpr rfl) rfl (fun _ _ => rfl)
      (by simp) hne
  rw [conditionOf_of_ne hk, map_done]
  refine ⟨.columns names, ?_, rfl⟩
  unfold joinCondition
  rw [accept_bind_done]
  refine .inr ⟨nofun, ?_⟩
  simp only [Bool.false_eq_true, if_false]
  rw [accept_bind_done]
  refine .inl ⟨_, rfl, bind_done.mpr ⟨names, rest, inParens_done.mpr ⟨_, ?_, hnames⟩, rfl⟩⟩
  simp [enclose]

/-- A table in front of what is no part of it. -/
theorem read_tableRef {t : TableRef} (h : Clear extendsItem rest) :
    tableRef.read (t.tokens ++ rest) = .done t rest := by
  refine tableRef_done.mpr ⟨rfl, fun _ => ?_, fun _ => h.right⟩
  exact head?_ne_of_clear h.optionalName rfl

theorem Completes.table {t : TableRef} : Completes n .source t.tokens (.table t) := by
  intro rest hclear
  rw [source, read_bind, read_tableRef hclear]
  rfl

/-- The words of a join lead to its kind. -/
theorem Introduces.joinKind {kind : JoinKind} {words : List Token} (h : Introduces kind words) :
    ∃ t ws r, words = t :: ws ∧ Grammar.joinKind t = some r ∧ extendsItem t = false ∧
      ∀ rest, r.read (ws ++ rest) = .done kind rest := by
  cases h with
  | comma => exact ⟨_, _, _, rfl, rfl, rfl, fun _ => rfl⟩
  | plain => exact ⟨_, _, _, rfl, rfl, rfl, fun _ => rfl⟩
  | spelled => cases kind <;> exact ⟨_, _, _, rfl, rfl, rfl, fun _ => rfl⟩

theorem Derives.clear_link {choice : Choice} {kind : JoinKind} {o : Option JoinCondition}
    (h : Derives choice n (.link kind) us o) (hclear : Clear extendsItem rest) :
    Clear extendsItem (us ++ rest) := by
  cases h with
  | unconditional => exact hclear
  | test _ _ => exact clear_cons.mpr rfl
  | columns _ => exact clear_cons.mpr rfl

theorem Completes.join {left : Source} {kind : JoinKind} {words : List Token} {t : TableRef}
    {condition : Option JoinCondition} (hl : Completes n .source ts left)
    (hwords : Introduces kind words) (hd : Derives .longest n (.link kind) us condition)
    (hc : Completes n (.link kind) us condition) :
    Completes n .source (ts ++ (words ++ (t.tokens ++ us)))
      (.join left (.table t) kind condition) := by
  intro rest hclear
  obtain ⟨head, ws, r, rfl, hkind, hhead, hread⟩ := hwords.joinKind
  have hjoined : joined (expression n) head = some (do
      let kind ← r
      let right ← tableRef
      let condition ← conditionOf (expression n) kind
      return fun left => .join left (.table right) kind condition) := by
    rw [joined, hkind]
    rfl
  have htail : (do
      let kind ← r
      let right ← tableRef
      let condition ← conditionOf (expression n) kind
      return fun left => Source.join left (.table right) kind condition : Reader _).read
        (ws ++ (t.tokens ++ (us ++ rest))) =
      .done (fun left => .join left (.table t) kind condition) rest := by
    simp only [bind_done]
    exact ⟨kind, _, hread _, t, _, read_tableRef (hd.clear_link hclear), condition, rest,
      hc rest hclear.left, rfl⟩
  simp only [List.append_assoc, List.cons_append]
  rw [hl _ (clear_cons.mpr hhead), joinsFrom_cons hjoined htail]

/-- Nothing joins in front of a later clause. -/
theorem joinsFrom_of_after {left : Source} (h : After 1 rest) :
    (joinsFrom sub left).read rest = .done left rest := by
  have hclear : Clear (fun t => (joined sub t).isSome) rest := by
    refine h.clear fun t ht => ?_
    rw [joined, Option.isSome_map] at ht
    unfold Grammar.joinKind at ht
    split at ht <;> first | rfl | cases ht
  rw [joinsFrom, bind_done]
  exact ⟨[], rest, repeated_of_clear hclear, rfl⟩

/-! ### Queries -/

theorem read_scope (o : Option String) (h : After 2 rest) :
    scope.read (scopeTokens o ++ rest) = .done o rest := by
  unfold scope
  rw [accept_pair_bind_done]
  cases o with
  | none =>
    refine .inr ⟨?_, rfl⟩
    rintro us rfl
    exact absurd (after_cons.mp h) (by decide)
  | some name =>
    exact .inl ⟨_, rfl, bind_done.mpr ⟨name, rest, identifier_done.mpr rfl, rfl⟩⟩

theorem read_limit (o : Option String) (h : After 7 rest) :
    (introduced .LIMIT (integer .rowCount)).read (limitTokens o ++ rest) = .done o rest := by
  rw [introduced_done]
  cases o with
  | none => exact .inr ⟨h.head?_ne (by decide), rfl, rfl⟩
  | some text => exact .inl ⟨_, text, rfl, integer_done.mpr rfl, rfl⟩

theorem read_groups (cs : List ColumnRef) (h : After 4 rest) :
    (listBy .GROUP columnRef).read (byTokens .GROUP (cs.map ColumnRef.tokens) ++ rest) =
      .done cs rest :=
  read_listBy (p := isGlue)
    (fun hclear => columnRef_done.mpr ⟨rfl, fun _ => head?_ne_of_clear hclear rfl⟩) rfl
    h.expression.left (h.head?_ne (by decide)) (h.head?_ne (by decide)) cs

theorem read_order (entries : List OrderItem) (h : After 6 rest) :
    (listBy .ORDER orderItem).read (byTokens .ORDER (entries.map OrderItem.tokens) ++ rest) =
      .done entries rest := by
  have hclear : Clear continuesOrder rest := h.clear fun t ht => by
    unfold continuesOrder at ht
    split at ht <;> first | rfl | cases ht
  exact read_listBy read_orderItem rfl hclear (h.head?_ne (by decide)) (h.head?_ne (by decide))
    entries

/-- Each clause is read in front of the later ones. -/
theorem Completes.query {vs ws : List Token} {items : List SelectItem} {source : Option Source}
    {scope : Option String} {filter : Option Expr} {groups : List ColumnRef}
    {groupFilter : Option Expr} {order : List OrderItem} {limit : Option String}
    (dsource : Derives .longest n (.clause .FROM .source) us source)
    (dfilter : Derives .longest n (.clause .WHERE .condition) vs filter)
    (dgroupFilter : Derives .longest n (.clause .HAVING .condition) ws groupFilter)
    (hitems : Completes n (.list .item) ts items)
    (hsource : Completes n (.clause .FROM .source) us source)
    (hfilter : Completes n (.clause .WHERE .condition) vs filter)
    (hgroupFilter : Completes n (.clause .HAVING .condition) ws groupFilter) :
    Completes n .query
      (.keyword .SELECT :: (ts ++ (us ++ (scopeTokens scope ++ (vs ++
        (byTokens .GROUP (groups.map ColumnRef.tokens) ++ (ws ++
          (byTokens .ORDER (order.map OrderItem.tokens) ++ limitTokens limit))))))))
      ⟨items, source, scope, filter, groups, groupFilter, order, limit⟩ := by
  intro rest hrest
  have h₇ : After 6 (limitTokens limit ++ rest) :=
    after_limitTokens limit (hrest.mono (by omega)) (by omega)
  have h₆ := after_byTokens .ORDER (order.map OrderItem.tokens)
    (h₇.mono (by omega) : After 5 _) (by decide)
  have h₅ := dgroupFilter.after_clause (h₆.mono (by omega) : After 4 _) (by decide)
  have h₄ := after_byTokens .GROUP (groups.map ColumnRef.tokens)
    (h₅.mono (by omega) : After 3 _) (by decide)
  have h₃ := dfilter.after_clause (h₄.mono (by omega) : After 2 _) (by decide)
  have h₂ := after_scopeTokens scope (h₃.mono (by omega) : After 1 _) (by omega)
  have h₁ := dsource.after_clause (h₂.mono (by omega) : After 0 _) (by decide)
  have ritems := hitems extendsItem (selectItem (expression n)) (fun _ _ h => h) rfl _ h₁.item
    (h₁.head?_ne (by decide))
  have rsource := hsource (fun t => decide (clauseRank t ≤ 1)) (Grammar.source (expression n))
    (fun _ _ h rest hr => (h rest (After.item hr)).trans (joinsFrom_of_after hr)) _ h₂
    (h₂.head?_ne (by decide))
  have rfilter := hfilter extendsExpression (expression n .disjunction) (fun _ _ h => h) _
    h₄.expression (h₄.head?_ne (by decide))
  have rgroupFilter := hgroupFilter extendsExpression (expression n .disjunction) (fun _ _ h => h) _
    h₆.expression (h₆.head?_ne (by decide))
  simp only [Grammar.query, Grammar.queryBody, bind_done, expectKeyword_done, List.cons_append,
    List.append_assoc]
  exact ⟨(), _, rfl, items, _, ritems, source, _, rsource, scope, _, read_scope scope h₃, filter, _,
    rfilter, groups, _, read_groups groups h₅, groupFilter, _, rgroupFilter, order, _,
    read_order order h₇, limit, _, read_limit limit hrest, rfl⟩

/-- Every phrase of the grammar is read, in front of anything that does not go on with
it. -/
theorem Derives.completes {s : Symbol} {v : s.Value} (h : Derives .longest n s ts v) :
    Completes n s ts v := by
  induction h with
  | query _ d₂ d₃ d₄ ih₁ ih₂ ih₃ ih₄ => exact Completes.query d₂ d₃ d₄ ih₁ ih₂ ih₃ ih₄
  | star => exact Completes.star
  | item _ ih => exact Completes.item ih
  | table => exact Completes.table
  | join _ hwords hd ih₁ ih₂ => exact Completes.join ih₁ hwords hd ih₂
  | unconditional => exact Completes.unconditional
  | test hk _ ih => exact Completes.test hk ih
  | columns hk => exact Completes.columns hk (List.cons_ne_nil _ _)
  | condition _ ih => exact ih
  | expression _ ih => exact fun _ hclear => Completes.disjunction ih hclear
  | conjunction _ ih => exact Loops.loosen ih (by simp) fun _ => Clear.comparison
  | or _ _ ih₁ ih₂ => exact Completes.or ih₁ ih₂
  | comparison _ ih => exact Loops.loosen ih (by simp) fun _ => Clear.operand
  | and _ _ ih₁ ih₂ => exact Completes.and ih₁ ih₂
  | operand _ ih => exact Completes.chain ih
  | tail _ hadmits _ ih₁ ih₂ => exact Completes.tail ih₁ (hadmits rfl) ih₂
  | compare _ ih => exact Completes.compare ih
  | between _ _ ih₁ ih₂ => exact Completes.between ih₁ ih₂
  | inList _ ih => exact Completes.inList ih
  | inQuery _ ih => exact Completes.inQuery ih
  | like _ ih => exact Completes.like ih
  | isNull negated => exact Completes.isNull negated
  | literal hl => exact Completes.literal hl
  | column => exact Completes.column
  | call _ ih => exact Completes.call ih
  | subquery _ ih => exact Completes.subquery ih
  | paren _ ih => exact Completes.paren ih
  | hasRows _ ih => exact Completes.hasRows ih
  | hasNoRows _ ih => exact Completes.hasNoRows ih
  | not _ hexists ih => exact Completes.not ih (hexists nofun)
  | noArguments => exact Completes.noArguments
  | starArgument => exact Completes.starArgument
  | arguments _ ih => exact Completes.arguments ih
  | one _ ih => exact Completes.one ih
  | more _ _ ih₁ ih₂ => exact Completes.more ih₁ ih₂
  | absent => exact Completes.absent
  | present _ ih => exact Completes.present ih

end Grammar
end QueryCanon
