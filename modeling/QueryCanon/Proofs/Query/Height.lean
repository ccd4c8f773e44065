/-
How high the tree of a query is.

A walk over the tree goes as deep as the tree is high.  What stands on the left of an operator
or a join is on the level of the whole, so it costs a reader no level, however often it is
repeated; `height` counts such a step with a weight of its own, and `run` the steps of this
kind below one node.  All other steps go a level further in, but for a few that lead to a
clause of a query, and with weight zero the levels bound the height (`height_le`).
-/
import QueryCanon.Proofs.Query.Levels
import QueryCanon.Proofs.Query.Shape

namespace QueryCanon

mutual

/-- The nodes on the longest way down, where a step to the left counts `w`. -/
def Expr.height (w : Nat) : Expr → Nat
  | .star => 1
  | .column _ => 1
  | .literal _ => 1
  | .call _ args => Expr.eachHeight w args + 1
  | .subquery q => q.height w + 1
  | .and l r => max (l.height w + w) (r.height w + 1)
  | .or l r => max (l.height w + w) (r.height w + 1)
  | .not e => e.height w + 1
  | .paren e => e.height w + 1
  | .compare l _ r => max (l.height w + w) (r.height w + 1)
  | .between e low high _ => max (e.height w + w) (max (low.height w) (high.height w) + 1)
  | .inList e list _ => max (e.height w + w) (Expr.eachHeight w list + 1)
  | .inQuery e q _ => max (e.height w + w) (q.height w + 1)
  | .like e pattern _ => max (e.height w + w) (pattern.height w + 1)
  | .isNull e _ => e.height w + w
  | .hasRows q _ => q.height w + 1

def Expr.eachHeight (w : Nat) : List Expr → Nat
  | [] => 0
  | e :: es => max (e.height w) (Expr.eachHeight w es)

/-- Items and conditions are no nodes of their own here. -/
def SelectItem.height (w : Nat) : SelectItem → Nat
  | ⟨e, _⟩ => e.height w

def SelectItem.eachHeight (w : Nat) : List SelectItem → Nat
  | [] => 0
  | item :: items => max (item.height w) (SelectItem.eachHeight w items)

def JoinCondition.height (w : Nat) : JoinCondition → Nat
  | .test e => e.height w
  | .columns _ => 0

def Source.height (w : Nat) : Source → Nat
  | .table _ => 1
  | .join l r _ none => max (l.height w + w) (r.height w + 1)
  | .join l r _ (some c) => max (l.height w + w) (max (r.height w) (c.height w) + 1)

def Query.height (w : Nat) : Query → Nat
  | ⟨items, source, _, filter, _, groupFilter, _, _⟩ =>
    max (SelectItem.eachHeight w items)
      (max
        (match source with
          | none => 0
          | some s => s.height w)
        (max
          (match filter with
            | none => 0
            | some e => e.height w)
          (match groupFilter with
            | none => 0
            | some e => e.height w))) + 1

end

/-- The steps to the left below the expression, each of them counted `w`. -/
def Expr.run (w : Nat) : Expr → Nat
  | .and l _ => l.run w + w
  | .or l _ => l.run w + w
  | .compare l _ _ => l.run w + w
  | .between e _ _ _ => e.run w + w
  | .inList e _ _ => e.run w + w
  | .inQuery e _ _ => e.run w + w
  | .like e _ _ => e.run w + w
  | .isNull e _ => e.run w + w
  | _ => 0

def Source.run (w : Nat) : Source → Nat
  | .table _ => 0
  | .join l _ _ _ => l.run w + w

def Node.run (w : Nat) : Node → Nat
  | expr e => e.run w
  | source s => s.run w
  | condition _ => 0
  | query _ => 0

variable {w : Nat}

theorem Query.height_eq (items : List SelectItem) (source : Option Source) (scope : Option String)
    (filter : Option Expr) (groups : List ColumnRef) (groupFilter : Option Expr)
    (order : List OrderItem) (limit : Option String) :
    Query.height w ⟨items, source, scope, filter, groups, groupFilter, order, limit⟩ =
      max (SelectItem.eachHeight w items) (max (source.elim 0 (Source.height w))
        (max (filter.elim 0 (Expr.height w)) (groupFilter.elim 0 (Expr.height w)))) + 1 := by
  cases source <;> cases filter <;> cases groupFilter <;> rfl

theorem Source.height_join (l r : Source) (kind : JoinKind) (condition : Option JoinCondition) :
    (Source.join l r kind condition).height w =
      max (l.height w + w) (max (r.height w) (condition.elim 0 (JoinCondition.height w)) + 1) := by
  cases condition <;> simp [Source.height]

/-- Without a weight there are no steps to the left. -/
theorem Expr.run_zero (e : Expr) : e.run 0 = 0 := by
  fun_induction Expr.run 0 e <;> simp_all

theorem Source.run_zero (s : Source) : s.run 0 = 0 := by
  fun_induction Source.run 0 s <;> simp_all

theorem Node.run_zero (node : Node) : node.run 0 = 0 := by
  cases node with
  | expr e => exact e.run_zero
  | source s => exact s.run_zero
  | condition => rfl
  | query => rfl

/-! ### Levels and height -/

/-- What `L` levels allow where no run of steps to the left is longer than `K`: three nodes for
each level and `k` more, with a run below each of them. -/
def allowance (K L k : Nat) : Nat := (3 * L + k) * (K + 1)

variable {K L L' k k' a b run : Nat}

theorem allowance_mono (hL : L ≤ L') (hk : k ≤ k') : allowance K L k ≤ allowance K L' k' :=
  Nat.mul_le_mul_right (K + 1) (by omega)

theorem allowance_succ (K L k : Nat) : allowance K L (k + 1) = allowance K L k + (K + 1) :=
  Nat.succ_mul _ _

/-- One more level allows three more nodes. -/
theorem allowance_level (K L : Nat) : allowance K L 4 = allowance K (L + 1) 1 :=
  congrArg (· * (K + 1)) (by omega)

theorem leaf_le (K L k : Nat) : 1 + K ≤ 0 + allowance K L (k + 1) := by
  have hsucc := allowance_succ K L k
  omega

theorem one_le_allowance (K L k : Nat) : 1 ≤ allowance K L (k + 1) := by
  have hleaf := leaf_le K L k
  omega

theorem max_le_allowance (ha : a ≤ allowance K L k) (hb : b ≤ allowance K L' k) :
    max a b ≤ allowance K (max L L') k :=
  Nat.max_le.mpr ⟨Nat.le_trans ha (allowance_mono (Nat.le_max_left L L') (Nat.le_refl k)),
    Nat.le_trans hb (allowance_mono (Nat.le_max_right L L') (Nat.le_refl k))⟩

/-- A step to the left. -/
theorem step_left (h : a + K ≤ run + allowance K L k) (hL : L ≤ L') :
    a + w + K ≤ run + w + allowance K L' k := by
  have hmono := allowance_mono (K := K) hL (Nat.le_refl k)
  omega

/-- Any other step. -/
theorem step_down (h : a ≤ allowance K L k) (hL : L ≤ L') :
    a + 1 + K ≤ allowance K L' (k + 1) := by
  have hmono := allowance_mono (K := K) hL (Nat.le_refl k)
  have hsucc := allowance_succ K L' k
  omega

/-- A step that goes a level further in. -/
theorem step_in (h : a ≤ allowance K L k) (hk : k ≤ 3) :
    a + 1 + K ≤ 0 + allowance K (L + 1) 1 := by
  have hthree := Nat.le_trans h (allowance_mono (Nat.le_refl L) hk)
  have hstep := step_down hthree (Nat.le_refl L)
  rwa [allowance_level, ← Nat.zero_add (allowance K (L + 1) 1)] at hstep

/-- A step to the left beside one that goes a level further in. -/
theorem step_beside (hleft : a + K ≤ run + allowance K L 1) (hin : b ≤ allowance K L' k)
    (hk : k ≤ 3) : max (a + w) (b + 1) + K ≤ run + w + allowance K (max L (L' + 1)) 1 := by
  have hleft := step_left (w := w) hleft (Nat.le_max_left L (L' + 1))
  have hin := step_in hin hk
  have hmono := allowance_mono (K := K) (Nat.le_max_right L (L' + 1)) (Nat.le_refl 1)
  omega

/-! ### The height of a tree -/

/-- Whether a node is as a reader makes it, and no run below it is longer than `K`. -/
def Node.Fits (w K : Nat) (node : Node) : Prop := node.Shaped ∧ node.run w ≤ K

theorem Expr.whole_le {e : Expr} (h : ∀ node ∈ e.nodes, node.Fits w K)
    (hle : e.height w + K ≤ e.run w + allowance K e.levels 1) :
    e.height w ≤ allowance K e.levels 1 := by
  have hrun : e.run w ≤ K := (h _ e.mem_nodes).2
  omega

theorem Source.whole_le {s : Source} (h : ∀ node ∈ s.nodes, node.Fits w K)
    (hle : s.height w + K ≤ s.run w + allowance K s.levels 2) :
    s.height w ≤ allowance K s.levels 2 := by
  have hrun : s.run w ≤ K := (h _ s.mem_nodes).2
  omega

mutual

theorem Expr.height_le (e : Expr) (h : ∀ node ∈ e.nodes, node.Fits w K) :
    e.height w + K ≤ e.run w + allowance K e.levels 1 := by
  cases e with
  | star => exact leaf_le K 0 0
  | column => exact leaf_le K 1 0
  | literal => exact leaf_le K 1 0
  | call name args =>
    obtain ⟨-, hargs⟩ := List.forall_mem_cons.mp h
    exact step_in (Expr.eachHeight_le args hargs) (by decide)
  | subquery q =>
    obtain ⟨-, hq⟩ := List.forall_mem_cons.mp h
    exact step_in (Query.height_le q hq) (by decide)
  | and l r =>
    obtain ⟨-, hlr⟩ := List.forall_mem_cons.mp h
    obtain ⟨hl, hr⟩ := List.forall_mem_append.mp hlr
    exact step_beside (Expr.height_le l hl) (Expr.whole_le hr (Expr.height_le r hr)) (by decide)
  | or l r =>
    obtain ⟨-, hlr⟩ := List.forall_mem_cons.mp h
    obtain ⟨hl, hr⟩ := List.forall_mem_append.mp hlr
    exact step_beside (Expr.height_le l hl) (Expr.whole_le hr (Expr.height_le r hr)) (by decide)
  | not e =>
    obtain ⟨-, he⟩ := List.forall_mem_cons.mp h
    exact step_in (Expr.whole_le he (Expr.height_le e he)) (by decide)
  | paren e =>
    obtain ⟨-, he⟩ := List.forall_mem_cons.mp h
    exact step_in (Expr.whole_le he (Expr.height_le e he)) (by decide)
  | compare l op r =>
    obtain ⟨-, hlr⟩ := List.forall_mem_cons.mp h
    obtain ⟨hl, hr⟩ := List.forall_mem_append.mp hlr
    exact step_beside (Expr.height_le l hl) (Expr.whole_le hr (Expr.height_le r hr)) (by decide)
  | between e low high negated =>
    obtain ⟨-, hall⟩ := List.forall_mem_cons.mp h
    obtain ⟨he, hbounds⟩ := List.forall_mem_append.mp hall
    obtain ⟨hlow, hhigh⟩ := List.forall_mem_append.mp hbounds
    have hbounds := max_le_allowance (Expr.whole_le hlow (Expr.height_le low hlow))
      (Expr.whole_le hhigh (Expr.height_le high hhigh))
    exact step_beside (Expr.height_le e he) hbounds (by decide)
  | inList e list negated =>
    obtain ⟨-, hall⟩ := List.forall_mem_cons.mp h
    obtain ⟨he, hlist⟩ := List.forall_mem_append.mp hall
    exact step_beside (Expr.height_le e he) (Expr.eachHeight_le list hlist) (by decide)
  | inQuery e q negated =>
    obtain ⟨-, hall⟩ := List.forall_mem_cons.mp h
    obtain ⟨he, hq⟩ := List.forall_mem_append.mp hall
    exact step_beside (Expr.height_le e he) (Query.height_le q hq) (by decide)
  | like e pattern negated =>
    obtain ⟨-, hall⟩ := List.forall_mem_cons.mp h
    obtain ⟨he, hpattern⟩ := List.forall_mem_append.mp hall
    have hpattern := Expr.whole_le hpattern (Expr.height_le pattern hpattern)
    exact step_beside (Expr.height_le e he) hpattern (by decide)
  | isNull e negated =>
    obtain ⟨-, he⟩ := List.forall_mem_cons.mp h
    exact step_left (Expr.height_le e he) (Nat.le_max_left _ 1)
  | hasRows q negated =>
    obtain ⟨-, hq⟩ := List.forall_mem_cons.mp h
    exact step_in (Query.height_le q hq) (by decide)
termination_by structural e

theorem Expr.eachHeight_le (es : List Expr) (h : ∀ node ∈ Expr.eachNodes es, node.Fits w K) :
    Expr.eachHeight w es ≤ allowance K (Expr.eachLevels es) 1 := by
  cases es with
  | nil => exact Nat.zero_le _
  | cons e es =>
    obtain ⟨he, hes⟩ := List.forall_mem_append.mp h
    exact max_le_allowance (Expr.whole_le he (Expr.height_le e he)) (Expr.eachHeight_le es hes)
termination_by structural es

theorem SelectItem.height_le (item : SelectItem) (h : ∀ node ∈ item.nodes, node.Fits w K) :
    item.height w ≤ allowance K item.levels 1 := by
  obtain ⟨e, label⟩ := item
  exact Expr.whole_le h (Expr.height_le e h)
termination_by structural item

theorem SelectItem.eachHeight_le (items : List SelectItem)
    (h : ∀ node ∈ SelectItem.eachNodes items, node.Fits w K) :
    SelectItem.eachHeight w items ≤ allowance K (SelectItem.eachLevels items) 1 := by
  cases items with
  | nil => exact Nat.zero_le _
  | cons item items =>
    obtain ⟨hitem, hitems⟩ := List.forall_mem_append.mp h
    exact max_le_allowance (SelectItem.height_le item hitem)
      (SelectItem.eachHeight_le items hitems)
termination_by structural items

theorem JoinCondition.height_le (c : JoinCondition) (h : ∀ node ∈ c.nodes, node.Fits w K) :
    c.height w ≤ allowance K c.levels 1 := by
  cases c with
  | test e =>
    obtain ⟨-, he⟩ := List.forall_mem_cons.mp h
    exact Expr.whole_le he (Expr.height_le e he)
  | columns names => exact Nat.zero_le _
termination_by structural c

theorem Source.height_le (s : Source) (h : ∀ node ∈ s.nodes, node.Fits w K) :
    s.height w + K ≤ s.run w + allowance K s.levels 2 := by
  cases s with
  | table t => exact leaf_le K 0 1
  | join l r kind condition =>
    rw [Source.nodes_join, List.forall_mem_cons, List.forall_mem_append] at h
    obtain ⟨⟨⟨⟨t, rfl⟩, -⟩, -⟩, hl, hcondition⟩ := h
    have hcondition : condition.elim 0 (JoinCondition.height w) ≤
        allowance K (condition.elim 0 JoinCondition.levels) 1 := by
      cases condition with
      | none => exact Nat.zero_le _
      | some c => exact JoinCondition.height_le c (List.forall_mem_append.mp hcondition).2
    have hright : max ((Source.table t).height w) (condition.elim 0 (JoinCondition.height w)) ≤
        allowance K (condition.elim 0 JoinCondition.levels) 1 :=
      Nat.max_le.mpr ⟨one_le_allowance K _ 0, hcondition⟩
    have hleft := step_left (w := w) (Source.height_le l hl)
      (Nat.le_trans (Nat.le_max_left l.levels (Source.table t).levels)
        (Nat.le_max_left _ (condition.elim 0 JoinCondition.levels)))
    have hdown : _ ≤ allowance K _ 2 :=
      step_down hright (Nat.le_max_right (max l.levels (Source.table t).levels) _)
    rw [Source.height_join, Source.levels_join, Source.run]
    omega
termination_by structural s

theorem Query.height_le (q : Query) (h : ∀ node ∈ q.nodes, node.Fits w K) :
    q.height w ≤ allowance K q.levels 3 := by
  obtain ⟨items, source, scope, filter, groups, groupFilter, order, limit⟩ := q
  rw [Query.nodes_eq, List.forall_mem_cons, List.forall_mem_append, List.forall_mem_append,
    List.forall_mem_append] at h
  obtain ⟨-, hitems, hsource, hfilter, hgroupFilter⟩ := h
  have hitems := SelectItem.eachHeight_le items hitems
  have hsource : source.elim 0 (Source.height w) ≤ allowance K (source.elim 0 Source.levels) 2 := by
    cases source with
    | none => exact Nat.zero_le _
    | some s => exact Source.whole_le hsource (Source.height_le s hsource)
  have hfilter : filter.elim 0 (Expr.height w) ≤ allowance K (filter.elim 0 Expr.levels) 1 := by
    cases filter with
    | none => exact Nat.zero_le _
    | some e => exact Expr.whole_le hfilter (Expr.height_le e hfilter)
  have hgroupFilter : groupFilter.elim 0 (Expr.height w) ≤
      allowance K (groupFilter.elim 0 Expr.levels) 1 := by
    cases groupFilter with
    | none => exact Nat.zero_le _
    | some e => exact Expr.whole_le hgroupFilter (Expr.height_le e hgroupFilter)
  -- A source may be a node higher than an item or a condition.
  have htwo : ∀ {a L : Nat}, a ≤ allowance K L 1 → a ≤ allowance K L 2 :=
    fun ha => Nat.le_trans ha (allowance_mono (Nat.le_refl _) (by decide))
  have hparts := max_le_allowance (htwo hitems) (max_le_allowance hsource
    (max_le_allowance (htwo hfilter) (htwo hgroupFilter)))
  have hquery := step_down hparts (Nat.le_refl _)
  rw [Query.height_eq, Query.levels_eq]
  exact Nat.le_trans (Nat.le_add_right _ K) hquery
termination_by structural q

end

end QueryCanon
