/-
The shape of the trees that are read.

The types allow more trees than a text can give.  `Shaped` says of one node how the nodes
right below it may look, and `nodes` lists every node of a tree, those inside its subqueries
among them.
-/
import QueryCanon.Query.Tokens

namespace QueryCanon

/-- A node of a tree. -/
inductive Node where
  | expr (e : Expr)
  | source (s : Source)
  | condition (c : JoinCondition)
  | query (q : Query)

mutual

def Expr.nodes : Expr → List Node
  | .star => [.expr .star]
  | .column c => [.expr (.column c)]
  | .literal l => [.expr (.literal l)]
  | .call name args => .expr (.call name args) :: Expr.eachNodes args
  | .subquery q => .expr (.subquery q) :: q.nodes
  | .and l r => .expr (.and l r) :: (l.nodes ++ r.nodes)
  | .or l r => .expr (.or l r) :: (l.nodes ++ r.nodes)
  | .not e => .expr (.not e) :: e.nodes
  | .paren e => .expr (.paren e) :: e.nodes
  | .compare l op r => .expr (.compare l op r) :: (l.nodes ++ r.nodes)
  | .between e low high negated =>
    .expr (.between e low high negated) :: (e.nodes ++ (low.nodes ++ high.nodes))
  | .inList e list negated => .expr (.inList e list negated) :: (e.nodes ++ Expr.eachNodes list)
  | .inQuery e q negated => .expr (.inQuery e q negated) :: (e.nodes ++ q.nodes)
  | .like e pattern negated => .expr (.like e pattern negated) :: (e.nodes ++ pattern.nodes)
  | .isNull e negated => .expr (.isNull e negated) :: e.nodes
  | .hasRows q negated => .expr (.hasRows q negated) :: q.nodes

def Expr.eachNodes : List Expr → List Node
  | [] => []
  | e :: es => e.nodes ++ Expr.eachNodes es

def SelectItem.nodes : SelectItem → List Node
  | ⟨e, _⟩ => e.nodes

def SelectItem.eachNodes : List SelectItem → List Node
  | [] => []
  | item :: items => item.nodes ++ SelectItem.eachNodes items

def JoinCondition.nodes : JoinCondition → List Node
  | .test e => .condition (.test e) :: e.nodes
  | .columns names => [.condition (.columns names)]

def Source.nodes : Source → List Node
  | .table t => [.source (.table t)]
  | .join l r kind none => .source (.join l r kind none) :: (l.nodes ++ r.nodes)
  | .join l r kind (some c) =>
    .source (.join l r kind (some c)) :: (l.nodes ++ (r.nodes ++ c.nodes))

def Query.nodes : Query → List Node
  | ⟨items, source, scope, filter, groups, groupFilter, order, limit⟩ =>
    .query ⟨items, source, scope, filter, groups, groupFilter, order, limit⟩ ::
      (SelectItem.eachNodes items ++
        ((match source with
          | none => []
          | some s => s.nodes) ++
        ((match filter with
          | none => []
          | some e => e.nodes) ++
        (match groupFilter with
          | none => []
          | some e => e.nodes))))

end

theorem Source.nodes_join (l r : Source) (kind : JoinKind) (condition : Option JoinCondition) :
    (Source.join l r kind condition).nodes = .source (.join l r kind condition) ::
      (l.nodes ++ (r.nodes ++ condition.elim [] JoinCondition.nodes)) := by
  cases condition <;> simp [Source.nodes]

theorem Query.nodes_eq (items : List SelectItem) (source : Option Source) (scope : Option String)
    (filter : Option Expr) (groups : List ColumnRef) (groupFilter : Option Expr)
    (order : List OrderItem) (limit : Option String) :
    Query.nodes ⟨items, source, scope, filter, groups, groupFilter, order, limit⟩ =
      .query ⟨items, source, scope, filter, groups, groupFilter, order, limit⟩ ::
        (SelectItem.eachNodes items ++ (source.elim [] Source.nodes ++
          (filter.elim [] Expr.nodes ++ groupFilter.elim [] Expr.nodes))) := by
  cases source <;> cases filter <;> cases groupFilter <;> rfl

theorem Expr.mem_nodes (e : Expr) : .expr e ∈ e.nodes := by
  cases e <;> simp [Expr.nodes]

theorem Source.mem_nodes (s : Source) : .source s ∈ s.nodes := by
  obtain _ | ⟨_, _, _, _ | _⟩ := s <;> simp [Source.nodes]

namespace Expr

def isStar : Expr → Bool
  | star => true
  | _ => false

/-- An `EXISTS` without `NOT`. -/
def isPlainRowTest : Expr → Bool
  | hasRows _ false => true
  | _ => false

/-- What may stand bare on the left of a comparison or a predicate. -/
def fitsLeft (e : Expr) : Bool := !e.looserThanComparison && !e.isStar

/-- What may stand bare on the right of a comparison, as a bound of `BETWEEN` and as a `LIKE`
pattern.  A comparison or a predicate gets there only with a negation it has taken up. -/
def fitsRight : Expr → Bool
  | star => false
  | and .. => false
  | or .. => false
  | compare _ op _ => op == .notEq
  | between _ _ _ negated => negated
  | inList _ _ negated => negated
  | inQuery _ _ negated => negated
  | like _ _ negated => negated
  | isNull .. => false
  | _ => true

/-- What a `NOT` may stand before as a node of its own: nothing that takes the negation up. -/
def fitsNot : Expr → Bool
  | star => false
  | and .. => false
  | or .. => false
  | compare _ op _ => op != .eq
  | between _ _ _ negated => negated
  | inList _ _ negated => negated
  | inQuery _ _ negated => negated
  | like _ _ negated => negated
  | _ => true

/-- The end of the chain of left operands. -/
def leftmost : Expr → Expr
  | and l _ => l.leftmost
  | or l _ => l.leftmost
  | compare l _ _ => l.leftmost
  | between e _ _ _ => e.leftmost
  | inList e _ _ => e.leftmost
  | inQuery e _ _ => e.leftmost
  | like e _ _ => e.leftmost
  | isNull e _ => e.leftmost
  | e => e

/-- How the operands of an expression may look. -/
def Shaped : Expr → Prop
  | call _ args => args = [star] ∨ ∀ arg ∈ args, arg.isStar = false
  | and l r => (l.looserThanAnd || l.isStar) = false ∧ (r.isConnective || r.isStar) = false
  | or l r => l.isStar = false ∧ (r.looserThanAnd || r.isStar) = false
  | not e => e.fitsNot = true ∧ e.leftmost.isPlainRowTest = false
  | paren e => e.isStar = false
  | compare l _ r => l.fitsLeft = true ∧ r.fitsRight = true
  | between e low high _ => e.fitsLeft = true ∧ low.fitsRight = true ∧ high.fitsRight = true
  | inList e list _ => e.fitsLeft = true ∧ list ≠ [] ∧ ∀ item ∈ list, item.isStar = false
  | inQuery e _ _ => e.fitsLeft = true
  | like e pattern _ => e.fitsLeft = true ∧ pattern.fitsRight = true
  | isNull e _ => e.fitsLeft = true
  | _ => True

end Expr

/-- How what is right below a node may look. -/
def Node.Shaped : Node → Prop
  | expr e => e.Shaped
  | source (.table _) => True
  | source (.join _ r kind link) => (∃ t, r = .table t) ∧ (link = none ↔ kind = .cross)
  | condition (.test e) => e.isStar = false
  | condition (.columns names) => names ≠ []
  | query q => q.items ≠ [] ∧ (∀ e ∈ q.filter, e.isStar = false) ∧
    ∀ e ∈ q.groupFilter, e.isStar = false

/-! ### The nodes below one -/

def AllShaped (nodes : List Node) : Prop := ∀ node ∈ nodes, node.Shaped

@[simp]
theorem allShaped_nil : AllShaped [] := fun _ h => nomatch h

@[simp]
theorem allShaped_cons {node : Node} {nodes : List Node} :
    AllShaped (node :: nodes) ↔ node.Shaped ∧ AllShaped nodes :=
  List.forall_mem_cons

@[simp]
theorem allShaped_append {nodes more : List Node} :
    AllShaped (nodes ++ more) ↔ AllShaped nodes ∧ AllShaped more :=
  List.forall_mem_append

theorem allShaped_eachNodes {es : List Expr} :
    AllShaped (Expr.eachNodes es) ↔ ∀ e ∈ es, AllShaped e.nodes := by
  induction es with
  | nil => simp [Expr.eachNodes]
  | cons e es ih => rw [Expr.eachNodes, allShaped_append, ih, List.forall_mem_cons]

theorem allShaped_items {items : List SelectItem} :
    AllShaped (SelectItem.eachNodes items) ↔ ∀ item ∈ items, AllShaped item.nodes := by
  induction items with
  | nil => simp [SelectItem.eachNodes]
  | cons item items ih => rw [SelectItem.eachNodes, allShaped_append, ih, List.forall_mem_cons]

theorem Source.allShaped_join {l r : Source} {kind : JoinKind} {link : Option JoinCondition} :
    AllShaped (Source.join l r kind link).nodes ↔
      Node.Shaped (.source (.join l r kind link)) ∧ AllShaped l.nodes ∧ AllShaped r.nodes ∧
        AllShaped (link.elim [] JoinCondition.nodes) := by
  rw [Source.nodes_join, allShaped_cons, allShaped_append, allShaped_append]

theorem Query.allShaped_nodes {items : List SelectItem} {source : Option Source}
    {scope : Option String} {filter : Option Expr} {groups : List ColumnRef}
    {groupFilter : Option Expr} {order : List OrderItem} {limit : Option String} :
    AllShaped (Query.nodes ⟨items, source, scope, filter, groups, groupFilter, order, limit⟩) ↔
      Node.Shaped (.query ⟨items, source, scope, filter, groups, groupFilter, order, limit⟩) ∧
        (∀ item ∈ items, AllShaped item.nodes) ∧ (∀ s ∈ source, AllShaped s.nodes) ∧
          (∀ e ∈ filter, AllShaped e.nodes) ∧ ∀ e ∈ groupFilter, AllShaped e.nodes := by
  rw [← allShaped_items]
  cases source <;> cases filter <;> cases groupFilter <;> simp [Query.nodes]

end QueryCanon
