/-
Every phrase of the longest reading has a tree of the shape that `Shaped` describes.

What a node may have below it depends on the level it is read at, on whether a `NOT` ends
it, and on whether its tokens begin with `EXISTS`; `Fits` says so for each kind of phrase.
-/
import QueryCanon.Proofs.Grammar.Completeness
import QueryCanon.Proofs.Query.Shape

namespace QueryCanon
namespace Grammar

variable {n : Nat} {s : Symbol} {ts us : List Token} {e l r : Expr} {t : Tail} {ending : Ending}

/-- A tree that is read as a comparison from `ts`. -/
structure FitsComparison (ending : Ending) (ts : List Token) (e : Expr) : Prop where
  notConnective : e.isConnective = false
  bare : e.isStar = false
  tight : ending = .closed → e.looserThanComparison = false
  leftmost : ts.head? ≠ some (.keyword .EXISTS) → e.leftmost.isPlainRowTest = false
  nodes : AllShaped e.nodes

/-- What is shown of a phrase. -/
def Fits : (s : Symbol) → List Token → s.Value → Prop
  | .query, _, q => AllShaped q.nodes
  | .item, _, item => AllShaped item.nodes
  | .source, _, s => AllShaped s.nodes
  | .link kind, _, o => (o = none ↔ kind = .cross) ∧ AllShaped (o.elim [] JoinCondition.nodes)
  | .condition, _, e => e.isStar = false ∧ AllShaped e.nodes
  | .expression, _, e => e.isStar = false ∧ AllShaped e.nodes
  | .disjunction, _, e => e.isStar = false ∧ AllShaped e.nodes
  | .conjunction, _, e => (e.looserThanAnd || e.isStar) = false ∧ AllShaped e.nodes
  | .comparison ending, ts, e => FitsComparison ending ts e
  | .operand ending, ts, e => FitsComparison ending ts e ∧ e.fitsRight = true
  | .tail _, _, t => ∀ l : Expr, l.fitsLeft = true → AllShaped l.nodes →
    AllShaped (t.apply l).nodes
  | .arguments, _, args => Expr.Shaped (.call "" args) ∧ ∀ arg ∈ args, AllShaped arg.nodes
  | .list s, _, vs => vs ≠ [] ∧ ∀ v ∈ vs, ∃ us, Fits s us v
  | .clause _ s, _, o => ∀ v ∈ o, ∃ us, Fits s us v

/-! ### Operands -/

theorem FitsComparison.fitsLeft (h : FitsComparison .closed ts e) : e.fitsLeft = true := by
  simp [Expr.fitsLeft, h.tight rfl, h.bare]

/-- What nothing is below but a query, a list or a whole expression. -/
theorem Fits.atom (hlooser : e.looserThanOperand = false) (hstar : e.isStar = false)
    (hleft : ts.head? ≠ some (.keyword .EXISTS) → e.isPlainRowTest = false)
    (hnodes : AllShaped e.nodes) : Fits (.operand .closed) ts e := by
  have hleftmost : e.leftmost = e := by cases e <;> first | rfl | cases hlooser
  refine ⟨⟨?_, hstar, fun _ => ?_, fun h => ?_, hnodes⟩, ?_⟩
  · cases e <;> first | rfl | cases hlooser
  · cases e <;> first | rfl | cases hlooser
  · rw [hleftmost]
    exact hleft h
  · cases e <;> first | rfl | (cases hstar; done) | cases hlooser

/-- What does not take a negation up may have a `NOT` before it. -/
theorem FitsComparison.fitsNot (h : FitsComparison ending ts e) (hnegate : e.negate = .not e) :
    e.fitsNot = true := by
  have hconnective := h.notConnective
  have hstar := h.bare
  cases e with
  | star => cases hstar
  | and => cases hconnective
  | or => cases hconnective
  | compare l op r => cases op <;> first | rfl | cases hnegate
  | between e low high negated => cases negated <;> first | rfl | cases hnegate
  | inList e list negated => cases negated <;> first | rfl | cases hnegate
  | inQuery e q negated => cases negated <;> first | rfl | cases hnegate
  | like e pattern negated => cases negated <;> first | rfl | cases hnegate
  | _ => rfl

/-- A negation that is taken up leaves all that is below the node as it is. -/
theorem FitsComparison.nodes_negate (h : FitsComparison ending ts e)
    (hexists : ts.head? ≠ some (.keyword .EXISTS)) : AllShaped e.negate.nodes := by
  have hfits := h.fitsNot
  revert hfits
  unfold Expr.negate
  split
  case h_6 => exact fun hfits => allShaped_cons.mpr ⟨⟨hfits rfl, h.leftmost hexists⟩, h.nodes⟩
  all_goals
    obtain ⟨hnode, hbelow⟩ := allShaped_cons.mp h.nodes
    exact fun _ => allShaped_cons.mpr ⟨hnode, hbelow⟩

theorem FitsComparison.negation (h : FitsComparison ending ts e)
    (hexists : ts.head? ≠ some (.keyword .EXISTS)) :
    Fits (.operand .ajar) (.keyword .NOT :: ts) e.negate := by
  have hleftmost := h.leftmost hexists
  refine ⟨⟨?_, ?_, nofun, fun _ => ?_, h.nodes_negate hexists⟩, ?_⟩
  all_goals unfold Expr.negate
  case refine_3 => split <;> first | exact hleftmost | rfl
  all_goals split <;> rfl

/-! ### Tails -/

theorem Tail.leftmost_apply (t : Tail) (l : Expr) : (t.apply l).leftmost = l.leftmost := by
  cases t <;> rfl

theorem FitsComparison.tail (hl : FitsComparison .closed ts l)
    (hhead : (ts ++ us).head? = ts.head?) (ht : Fits (.tail ending) us t) :
    FitsComparison ending (ts ++ us) (t.apply l) where
  notConnective := by cases t <;> rfl
  bare := by cases t <;> rfl
  tight _ := by cases t <;> rfl
  leftmost h := by
    rw [Tail.leftmost_apply]
    rw [hhead] at h
    exact hl.leftmost h
  nodes := ht l hl.fitsLeft hl.nodes

theorem Fits.compare {op : Comparison} (h : Fits (.operand ending) us r) :
    Fits (.tail ending) ts (.compare op r) := by
  intro l hl hnodes
  simpa [Tail.apply, Expr.nodes, Node.Shaped, Expr.Shaped, hl, h.2, hnodes] using h.1.nodes

theorem Fits.between {ending' : Ending} {low high : Expr} {vs : List Token} {negated : Bool}
    (hlow : Fits (.operand ending) us low) (hhigh : Fits (.operand ending') vs high) :
    Fits (.tail ending') ts (.between low high negated) := by
  intro l hl hnodes
  simpa [Tail.apply, Expr.nodes, Node.Shaped, Expr.Shaped, hl, hlow.2, hhigh.2, hnodes] using
    And.intro hlow.1.nodes hhigh.1.nodes

theorem Fits.expressions {es : List Expr} (h : Fits (.list .expression) us es) :
    es ≠ [] ∧ (∀ e ∈ es, e.isStar = false) ∧ ∀ e ∈ es, AllShaped e.nodes := by
  obtain ⟨hne, hes⟩ := h
  refine ⟨hne, fun e he => ?_, fun e he => ?_⟩
  · obtain ⟨_, hstar, -⟩ := hes e he
    exact hstar
  · obtain ⟨_, -, hnodes⟩ := hes e he
    exact hnodes

theorem Fits.inList {es : List Expr} {negated : Bool} (h : Fits (.list .expression) us es) :
    Fits (.tail .closed) ts (.inList es negated) := by
  intro l hl hnodes
  obtain ⟨hne, hstar, hes⟩ := h.expressions
  rw [← allShaped_eachNodes] at hes
  exact allShaped_cons.mpr ⟨⟨hl, hne, hstar⟩, allShaped_append.mpr ⟨hnodes, hes⟩⟩

theorem Fits.inQuery {q : Query} {negated : Bool} (h : Fits .query us q) :
    Fits (.tail .closed) ts (.inQuery q negated) :=
  fun _ hl hnodes => allShaped_cons.mpr ⟨hl, allShaped_append.mpr ⟨hnodes, h⟩⟩

theorem Fits.like {pattern : Expr} {negated : Bool} (h : Fits (.operand ending) us pattern) :
    Fits (.tail ending) ts (.like pattern negated) :=
  fun _ hl hnodes => allShaped_cons.mpr ⟨⟨hl, h.2⟩, allShaped_append.mpr ⟨hnodes, h.1.nodes⟩⟩

theorem Fits.isNull {negated : Bool} : Fits (.tail .closed) ts (.isNull negated) :=
  fun _ hl hnodes => allShaped_cons.mpr ⟨hl, hnodes⟩

/-! ### Connectives -/

theorem FitsComparison.conjunction (h : FitsComparison ending ts e) : Fits .conjunction ts e := by
  have hconnective := h.notConnective
  refine ⟨?_, h.nodes⟩
  rw [h.bare, Bool.or_false]
  cases e <;> first | rfl | cases hconnective

theorem Fits.and (hl : Fits .conjunction ts l) (hr : FitsComparison ending us r) :
    Fits .conjunction (ts ++ .keyword .AND :: us) (.and l r) := by
  have hright : (r.isConnective || r.isStar) = false := by simp [hr.notConnective, hr.bare]
  exact ⟨rfl, allShaped_cons.mpr ⟨⟨hl.1, hright⟩, allShaped_append.mpr ⟨hl.2, hr.nodes⟩⟩⟩

theorem Fits.or (hl : Fits .disjunction ts l) (hr : Fits .conjunction us r) :
    Fits .disjunction (ts ++ .keyword .OR :: us) (.or l r) :=
  ⟨rfl, allShaped_cons.mpr ⟨⟨hl.1, hr.1⟩, allShaped_append.mpr ⟨hl.2, hr.2⟩⟩⟩

theorem Fits.disjunction (h : Fits .conjunction ts e) : Fits .disjunction ts e :=
  ⟨(Bool.or_eq_false_iff.mp h.1).2, h.2⟩

/-! ### Lists and queries -/

theorem Fits.arguments {es : List Expr} (h : Fits (.list .expression) us es) :
    Fits .arguments us es := by
  obtain ⟨-, hstar, hes⟩ := h.expressions
  exact ⟨.inr hstar, hes⟩

theorem Fits.call {name : String} {args : List Expr} (h : Fits .arguments us args) :
    Fits (.operand .closed) (.identifier name :: ts) (.call name args) :=
  .atom rfl rfl (fun _ => rfl) (allShaped_cons.mpr ⟨h.1, allShaped_eachNodes.mpr h.2⟩)

theorem Fits.more {v : s.Value} {vs : List s.Value} (h : Fits s ts v) (hs : Fits (.list s) us vs) :
    Fits (.list s) (ts ++ .comma :: us) (v :: vs) :=
  ⟨List.cons_ne_nil v vs, List.forall_mem_cons.mpr ⟨⟨ts, h⟩, hs.2⟩⟩

theorem Fits.join {left : Source} {kind : JoinKind} {table : TableRef}
    {link : Option JoinCondition} (hl : Fits .source ts left) (hc : Fits (.link kind) us link) :
    Fits .source ts (.join left (.table table) kind link) := by
  have htable : AllShaped (Source.table table).nodes :=
    allShaped_cons.mpr ⟨trivial, allShaped_nil⟩
  exact Source.allShaped_join.mpr ⟨⟨⟨table, rfl⟩, hc.1⟩, hl, htable, hc.2⟩

theorem Fits.test {kind : JoinKind} (hk : kind ≠ .cross) (h : Fits .expression us e) :
    Fits (.link kind) ts (some (.test e)) := by
  refine ⟨?_, allShaped_cons.mpr h⟩
  simpa using hk

theorem Fits.columns {kind : JoinKind} {name : String} {names : List String}
    (hk : kind ≠ .cross) : Fits (.link kind) ts (some (.columns (name :: names))) := by
  refine ⟨?_, allShaped_cons.mpr ⟨List.cons_ne_nil name names, allShaped_nil⟩⟩
  simpa using hk

theorem Fits.query {items : List SelectItem} {source : Option Source} {scope : Option String}
    {filter : Option Expr} {groups : List ColumnRef} {groupFilter : Option Expr}
    {order : List OrderItem} {limit : Option String} {ts₁ ts₂ ts₃ ts₄ : List Token}
    (hitems : Fits (.list .item) ts₁ items) (hsource : Fits (.clause .FROM .source) ts₂ source)
    (hfilter : Fits (.clause .WHERE .condition) ts₃ filter)
    (hgroupFilter : Fits (.clause .HAVING .condition) ts₄ groupFilter) :
    Fits .query ts ⟨items, source, scope, filter, groups, groupFilter, order, limit⟩ := by
  refine Query.allShaped_nodes.mpr ⟨⟨hitems.1, ?_, ?_⟩, ?_, ?_, ?_, ?_⟩
  · exact fun e he => (hfilter e he).elim fun _ h => h.1
  · exact fun e he => (hgroupFilter e he).elim fun _ h => h.1
  · exact fun item hitem => (hitems.2 item hitem).elim fun _ h => h
  · exact fun s hs => (hsource s hs).elim fun _ h => h
  · exact fun e he => (hfilter e he).elim fun _ h => h.2
  · exact fun e he => (hgroupFilter e he).elim fun _ h => h.2

theorem Derives.fits {v : s.Value} (h : Derives .longest n s ts v) : Fits s ts v := by
  induction h with
  | query _ _ _ _ ih₁ ih₂ ih₃ ih₄ => exact Fits.query ih₁ ih₂ ih₃ ih₄
  | star => exact allShaped_cons.mpr ⟨trivial, allShaped_nil⟩
  | item _ ih => exact ih.2
  | table => exact allShaped_cons.mpr ⟨trivial, allShaped_nil⟩
  | join _ _ _ ih₁ ih₂ => exact Fits.join ih₁ ih₂
  | unconditional => exact ⟨by simp, allShaped_nil⟩
  | test hk _ ih => exact Fits.test hk ih
  | columns hk => exact Fits.columns hk
  | condition _ ih => exact ih
  | expression _ ih => exact ih
  | conjunction _ ih => exact Fits.disjunction ih
  | or _ _ ih₁ ih₂ => exact Fits.or ih₁ ih₂
  | comparison _ ih => exact ih.conjunction
  | and _ _ ih₁ ih₂ => exact Fits.and ih₁ ih₂
  | operand _ ih => exact ih.1
  | tail hl hadmits _ ih₁ ih₂ =>
    cases hadmits rfl
    exact ih₁.tail (Completes.head?_append hl.completes _) ih₂
  | compare _ ih => exact Fits.compare ih
  | between _ _ ih₁ ih₂ => exact Fits.between ih₁ ih₂
  | inList _ ih => exact Fits.inList ih
  | inQuery _ ih => exact Fits.inQuery ih
  | like _ ih => exact Fits.like ih
  | isNull negated => exact Fits.isNull
  | literal _ => exact .atom rfl rfl (fun _ => rfl) (allShaped_cons.mpr ⟨trivial, allShaped_nil⟩)
  | column => exact .atom rfl rfl (fun _ => rfl) (allShaped_cons.mpr ⟨trivial, allShaped_nil⟩)
  | call _ ih => exact Fits.call ih
  | subquery _ ih => exact .atom rfl rfl (fun _ => rfl) (allShaped_cons.mpr ⟨trivial, ih⟩)
  | paren _ ih => exact .atom rfl rfl (fun _ => rfl) (allShaped_cons.mpr ih)
  | hasRows _ ih => exact .atom rfl rfl (fun h => absurd rfl h) (allShaped_cons.mpr ⟨trivial, ih⟩)
  | hasNoRows _ ih => exact .atom rfl rfl (fun _ => rfl) (allShaped_cons.mpr ⟨trivial, ih⟩)
  | not _ hexists ih => exact ih.negation (hexists nofun)
  | noArguments => exact ⟨.inr nofun, nofun⟩
  | starArgument =>
    refine ⟨.inl rfl, fun arg harg => ?_⟩
    rw [List.mem_singleton.mp harg]
    exact allShaped_cons.mpr ⟨trivial, allShaped_nil⟩
  | arguments _ ih => exact Fits.arguments ih
  | one _ ih => exact ⟨List.cons_ne_nil _ _, List.forall_mem_singleton.mpr ⟨_, ih⟩⟩
  | more _ _ ih₁ ih₂ => exact Fits.more ih₁ ih₂
  | absent => exact nofun
  | present _ ih => exact fun _ hv => ⟨_, Option.some.inj (Option.mem_def.mp hv) ▸ ih⟩

end Grammar
end QueryCanon
