/-
The grammar, as derivations.

`Derives choice n s ts v` says that the tokens `ts` are a phrase of the kind `s` with the
tree `v`, and that at most `n` expressions nest in one another there.  The rules have no
order and look at nothing but the phrase itself.

They are ambiguous in two points, both about `NOT`.  `NOT EXISTS` is one operand, and it
is a `NOT` before a comparison that begins with `EXISTS`.  And `NOT` takes a comparison as
its operand, so a tail behind that can belong to it or to what the `NOT` stands in.  Under
the choice `free` everything is derived; under `joined` a `NOT` before `EXISTS` is always
part of the one operand; under `longest`, besides, every `NOT` reaches as far as it can: a
phrase that ends in the operand of a `NOT` is `ajar`, and no tail comes after it.
-/
import QueryCanon.Grammar.Expression
import QueryCanon.Proofs.Query.Clauses

namespace QueryCanon
namespace Grammar

/-- What an operand may be followed by: an operator with its right side, or a predicate. -/
inductive Tail where
  | compare (op : Comparison) (right : Expr)
  | between (low high : Expr) (negated : Bool)
  | inList (list : List Expr) (negated : Bool)
  | inQuery (query : Query) (negated : Bool)
  | like (pattern : Expr) (negated : Bool)
  | isNull (negated : Bool)

/-- A tail behind its operand. -/
def Tail.apply (left : Expr) : Tail → Expr
  | compare op right => .compare left op right
  | between low high negated => .between left low high negated
  | inList list negated => .inList left list negated
  | inQuery query negated => .inQuery left query negated
  | like pattern negated => .like left pattern negated
  | isNull negated => .isNull left negated

/-- Whether a phrase ends in the operand of a `NOT`. -/
inductive Ending where
  | closed
  | ajar
deriving DecidableEq, Repr

/-- Which readings of a `NOT` are derived. -/
inductive Choice where
  | free
  | joined
  | longest
deriving DecidableEq, Repr

/-- Whether a tail may follow a phrase with this ending. -/
def Choice.Admits (choice : Choice) (ending : Ending) : Prop :=
  choice = .longest → ending = .closed

/-- The kinds of phrases. -/
inductive Symbol where
  | query
  | item
  | source
  | link (kind : JoinKind)
  /-- a whole `WHERE` or `HAVING` condition -/
  | condition
  | expression
  | disjunction
  | conjunction
  | comparison (ending : Ending)
  | operand (ending : Ending)
  | tail (ending : Ending)
  | arguments
  /-- one or more, with a comma between each two -/
  | list (s : Symbol)
  /-- a phrase that a keyword introduces, or nothing -/
  | clause (k : Keyword) (s : Symbol)

/-- The trees of the phrases of a kind. -/
@[reducible]
def Symbol.Value : Symbol → Type
  | query => Query
  | item => SelectItem
  | source => Source
  | link _ => Option JoinCondition
  | condition => Expr
  | expression => Expr
  | disjunction => Expr
  | conjunction => Expr
  | comparison _ => Expr
  | operand _ => Expr
  | tail _ => Tail
  | arguments => List Expr
  | list s => List s.Value
  | clause _ s => Option s.Value

/-- The words that begin a join of a kind. -/
inductive Introduces : JoinKind → List Token → Prop
  | spelled (kind : JoinKind) : Introduces kind kind.tokens
  | plain : Introduces .inner [.keyword .JOIN]
  | comma : Introduces .cross [.comma]

/-- The tokens that are a literal. -/
inductive Denotes : Token → Literal → Prop
  | integer (text : String) : Denotes (.integer text) (.number text)
  | decimal (text : String) : Denotes (.decimal text) (.number text)
  | string (body : String) : Denotes (.string body) (.string body)
  | true : Denotes (.keyword .TRUE) (.boolean true)
  | false : Denotes (.keyword .FALSE) (.boolean false)

variable {choice : Choice}

inductive Derives (choice : Choice) : Nat → (s : Symbol) → List Token → s.Value → Prop
  | query {n ts us vs ws items source scope filter groups groupFilter order limit} :
    Derives choice n (.list .item) ts items →
    Derives choice n (.clause .FROM .source) us source →
    Derives choice n (.clause .WHERE .condition) vs filter →
    Derives choice n (.clause .HAVING .condition) ws groupFilter →
    Derives choice n .query
      (.keyword .SELECT :: (ts ++ (us ++ (scopeTokens scope ++ (vs ++
        (byTokens .GROUP (groups.map ColumnRef.tokens) ++ (ws ++
          (byTokens .ORDER (order.map OrderItem.tokens) ++ limitTokens limit))))))))
      ⟨items, source, scope, filter, groups, groupFilter, order, limit⟩
  | star {n label} : Derives choice n .item (.star :: optionalName label) ⟨.star, label⟩
  | item {n ts e label} :
    Derives choice n .expression ts e →
    Derives choice n .item (ts ++ optionalName label) ⟨e, label⟩
  | table {n t} : Derives choice n .source (TableRef.tokens t) (.table t)
  | join {n ts left kind words t us condition} :
    Derives choice n .source ts left →
    Introduces kind words →
    Derives choice n (.link kind) us condition →
    Derives choice n .source (ts ++ (words ++ (TableRef.tokens t ++ us)))
      (.join left (.table t) kind condition)
  | unconditional {n} : Derives choice n (.link .cross) [] none
  | test {n kind ts e} :
    kind ≠ .cross →
    Derives choice n .expression ts e →
    Derives choice n (.link kind) (.keyword .ON :: ts) (some (.test e))
  | columns {n kind name names} :
    kind ≠ .cross →
    Derives choice n (.link kind)
      (.keyword .USING :: enclose (commaSeparated ((name :: names).map fun x => [.identifier x])))
      (some (.columns (name :: names)))
  | condition {n ts e} :
    Derives choice n .expression ts e →
    Derives choice n .condition ts e
  | expression {n ts e} :
    Derives choice n .disjunction ts e →
    Derives choice n .expression ts e
  | conjunction {n ts e} :
    Derives choice n .conjunction ts e →
    Derives choice n .disjunction ts e
  | or {n ts l us r} :
    Derives choice (n + 1) .disjunction ts l →
    Derives choice n .conjunction us r →
    Derives choice (n + 1) .disjunction (ts ++ .keyword .OR :: us) (.or l r)
  | comparison {n ending ts e} :
    Derives choice n (.comparison ending) ts e →
    Derives choice n .conjunction ts e
  | and {n ending ts l us r} :
    Derives choice (n + 1) .conjunction ts l →
    Derives choice n (.comparison ending) us r →
    Derives choice (n + 1) .conjunction (ts ++ .keyword .AND :: us) (.and l r)
  | operand {n ending ts e} :
    Derives choice n (.operand ending) ts e →
    Derives choice n (.comparison ending) ts e
  | tail {n ending ending' ts l us t} :
    Derives choice n (.comparison ending) ts l →
    choice.Admits ending →
    Derives choice n (.tail ending') us t →
    Derives choice n (.comparison ending') (ts ++ us) (t.apply l)
  | compare {n ending op us r} :
    Derives choice n (.operand ending) us r →
    Derives choice (n + 1) (.tail ending) (Comparison.token op :: us) (.compare op r)
  | between {n ending ending' negated us low vs high} :
    Derives choice n (.operand ending) us low →
    Derives choice n (.operand ending') vs high →
    Derives choice (n + 1) (.tail ending')
      (notTokens negated ++ .keyword .BETWEEN :: (us ++ .keyword .AND :: vs))
      (.between low high negated)
  | inList {n negated us list} :
    Derives choice n (.list .expression) us list →
    Derives choice (n + 1) (.tail .closed) (notTokens negated ++ .keyword .IN :: enclose us)
      (.inList list negated)
  | inQuery {n negated us q} :
    Derives choice n .query us q →
    Derives choice (n + 1) (.tail .closed) (notTokens negated ++ .keyword .IN :: enclose us)
      (.inQuery q negated)
  | like {n ending negated us pattern} :
    Derives choice n (.operand ending) us pattern →
    Derives choice (n + 1) (.tail ending) (notTokens negated ++ .keyword .LIKE :: us)
      (.like pattern negated)
  | isNull {n} (negated : Bool) :
    Derives choice (n + 1) (.tail .closed)
      (.keyword .IS :: (notTokens negated ++ [.keyword .NULL])) (.isNull negated)
  | literal {n t l} : Denotes t l → Derives choice (n + 1) (.operand .closed) [t] (.literal l)
  | column {n c} : Derives choice (n + 1) (.operand .closed) (ColumnRef.tokens c) (.column c)
  | call {n name ts args} :
    Derives choice n .arguments ts args →
    Derives choice (n + 1) (.operand .closed) (.identifier name :: enclose ts) (.call name args)
  | subquery {n ts q} :
    Derives choice n .query ts q →
    Derives choice (n + 1) (.operand .closed) (enclose ts) (.subquery q)
  | paren {n ts e} :
    Derives choice n .expression ts e →
    Derives choice (n + 1) (.operand .closed) (enclose ts) (.paren e)
  | hasRows {n ts q} :
    Derives choice n .query ts q →
    Derives choice (n + 1) (.operand .closed) (.keyword .EXISTS :: enclose ts) (.hasRows q false)
  | hasNoRows {n ts q} :
    Derives choice n .query ts q →
    Derives choice (n + 1) (.operand .closed) (.keyword .NOT :: .keyword .EXISTS :: enclose ts)
      (.hasRows q true)
  | not {n ending ts e} :
    Derives choice n (.comparison ending) ts e →
    (choice ≠ .free → ts.head? ≠ some (.keyword .EXISTS)) →
    Derives choice (n + 1) (.operand .ajar) (.keyword .NOT :: ts) e.negate
  | noArguments {n} : Derives choice n .arguments [] []
  | starArgument {n} : Derives choice n .arguments [.star] [.star]
  | arguments {n ts es} :
    Derives choice n (.list .expression) ts es →
    Derives choice n .arguments ts es
  | one {n s ts v} :
    Derives choice n s ts v →
    Derives choice n (.list s) ts [v]
  | more {n s ts v us vs} :
    Derives choice n s ts v →
    Derives choice n (.list s) us vs →
    Derives choice n (.list s) (ts ++ .comma :: us) (v :: vs)
  | absent {n k s} : Derives choice n (.clause k s) [] none
  | present {n k s ts v} :
    Derives choice n s ts v →
    Derives choice n (.clause k s) (.keyword k :: ts) (some v)

namespace Derives

/-- What nests less deep nests no deeper than any greater bound. -/
theorem succ {n : Nat} {s : Symbol} {ts : List Token} {v : s.Value}
    (h : Derives choice n s ts v) : Derives choice (n + 1) s ts v := by
  induction h with
  | query _ _ _ _ ih₁ ih₂ ih₃ ih₄ => exact query ih₁ ih₂ ih₃ ih₄
  | star => exact star
  | item _ ih => exact item ih
  | table => exact table
  | join _ hk _ ih₁ ih₂ => exact join ih₁ hk ih₂
  | unconditional => exact unconditional
  | test hk _ ih => exact test hk ih
  | columns hk => exact columns hk
  | condition _ ih => exact condition ih
  | expression _ ih => exact expression ih
  | conjunction _ ih => exact conjunction ih
  | or _ _ ih₁ ih₂ => exact or ih₁ ih₂
  | comparison _ ih => exact comparison ih
  | and _ _ ih₁ ih₂ => exact and ih₁ ih₂
  | operand _ ih => exact operand ih
  | tail _ ha _ ih₁ ih₂ => exact tail ih₁ ha ih₂
  | compare _ ih => exact compare ih
  | between _ _ ih₁ ih₂ => exact between ih₁ ih₂
  | inList _ ih => exact inList ih
  | inQuery _ ih => exact inQuery ih
  | like _ ih => exact like ih
  | isNull negated => exact isNull negated
  | literal hd => exact literal hd
  | column => exact column
  | call _ ih => exact call ih
  | subquery _ ih => exact subquery ih
  | paren _ ih => exact paren ih
  | hasRows _ ih => exact hasRows ih
  | hasNoRows _ ih => exact hasNoRows ih
  | not _ he ih => exact not ih he
  | noArguments => exact noArguments
  | starArgument => exact starArgument
  | arguments _ ih => exact arguments ih
  | one _ ih => exact one ih
  | more _ _ ih₁ ih₂ => exact more ih₁ ih₂
  | absent => exact absent
  | present _ ih => exact present ih

theorem mono {n m : Nat} {s : Symbol} {ts : List Token} {v : s.Value}
    (h : Derives choice n s ts v) (hnm : n ≤ m) : Derives choice m s ts v := by
  induction hnm with
  | refl => exact h
  | step _ ih => exact ih.succ

/-! ### Items without a name of their own -/

theorem bareStar {n : Nat} : Derives choice n .item [.star] ⟨.star, none⟩ := by
  have hitem : Derives choice n .item (.star :: optionalName none) ⟨.star, none⟩ := star
  exact hitem

theorem bareItem {n : Nat} {ts : List Token} {e : Expr} (h : Derives choice n .expression ts e) :
    Derives choice n .item ts ⟨e, none⟩ := by
  have hitem : Derives choice n .item (ts ++ optionalName none) ⟨e, none⟩ := h.item
  simpa [optionalName] using hitem

end Derives
end Grammar

/-! ### Properties of all phrases -/

namespace Piecewise

open Grammar

variable {P : List Token → Prop} (hP : Piecewise P) (hcross : P [.keyword .CROSS])
  {ts us : List Token}
include hP hcross

theorem before {t : Token} (ht : t.isPlain = true) (h : P ts) : P (t :: ts) := by
  by_cases hk : t = .keyword .CROSS
  · subst hk
    exact hP.append hcross h
  · exact hP.cons ht hk h

theorem word (k : Keyword) (h : P ts) : P (.keyword k :: ts) := hP.before hcross rfl h

theorem negated (negated : Bool) (k : Keyword) (h : P ts) :
    P (notTokens negated ++ .keyword k :: ts) := by
  cases negated with
  | false => exact hP.word hcross k h
  | true => exact hP.word hcross .NOT (hP.word hcross k h)

theorem introduces {kind : JoinKind} (h : Introduces kind ts) : P ts := by
  have hjoin : P [.keyword .JOIN] := hP.word hcross .JOIN hP.nil
  cases h with
  | spelled =>
    cases kind with
    | cross => exact hP.append hcross hjoin
    | _ => exact hP.joinKind (by decide)
  | plain => exact hjoin
  | comma => exact hP.before hcross rfl hP.nil

/-- What all pieces have, and `CROSS` too, every phrase has. -/
theorem phrase {choice : Choice} {n : Nat} {s : Symbol} {v : s.Value}
    (h : Derives choice n s ts v) : P ts := by
  induction h with
  | @query _ _ _ _ _ _ _ scope _ groups _ order limit _ _ _ _ ih₁ ih₂ ih₃ ih₄ =>
    have hend := hP.append (hP.order order) (hP.limit limit)
    have hgroups := hP.append (hP.groups groups) (hP.append ih₄ hend)
    have hscope := hP.append (hP.scope scope) (hP.append ih₃ hgroups)
    exact hP.word hcross .SELECT (hP.append ih₁ (hP.append ih₂ hscope))
  | star => exact hP.before hcross rfl (hP.optionalName _)
  | item _ ih => exact hP.append ih (hP.optionalName _)
  | table => exact hP.table _
  | join _ hwords _ ih₁ ih₂ =>
    exact hP.append ih₁ (hP.append (hP.introduces hcross hwords) (hP.append (hP.table _) ih₂))
  | unconditional => exact hP.nil
  | test _ _ ih => exact hP.word hcross .ON ih
  | columns _ => exact hP.word hcross .USING (hP.enclose (hP.names _))
  | condition _ ih => exact ih
  | expression _ ih => exact ih
  | conjunction _ ih => exact ih
  | or _ _ ih₁ ih₂ => exact hP.append ih₁ (hP.word hcross .OR ih₂)
  | comparison _ ih => exact ih
  | and _ _ ih₁ ih₂ => exact hP.append ih₁ (hP.word hcross .AND ih₂)
  | operand _ ih => exact ih
  | tail _ _ _ ih₁ ih₂ => exact hP.append ih₁ ih₂
  | @compare _ _ op _ _ _ ih => exact hP.before hcross (by cases op <;> rfl) ih
  | @between _ _ _ negated _ _ _ _ _ _ ih₁ ih₂ =>
    exact hP.negated hcross negated .BETWEEN (hP.append ih₁ (hP.word hcross .AND ih₂))
  | @inList _ negated _ _ _ ih => exact hP.negated hcross negated .IN (hP.enclose ih)
  | @inQuery _ negated _ _ _ ih => exact hP.negated hcross negated .IN (hP.enclose ih)
  | @like _ _ negated _ _ _ ih => exact hP.negated hcross negated .LIKE ih
  | isNull negated => exact hP.word hcross .IS (hP.negated hcross negated .NULL hP.nil)
  | literal hd => exact hP.before hcross (by cases hd <;> rfl) hP.nil
  | column => exact hP.column _
  | call _ ih => exact hP.before hcross rfl (hP.enclose ih)
  | subquery _ ih => exact hP.enclose ih
  | paren _ ih => exact hP.enclose ih
  | hasRows _ ih => exact hP.word hcross .EXISTS (hP.enclose ih)
  | hasNoRows _ ih => exact hP.word hcross .NOT (hP.word hcross .EXISTS (hP.enclose ih))
  | not _ _ ih => exact hP.word hcross .NOT ih
  | noArguments => exact hP.nil
  | starArgument => exact hP.before hcross rfl hP.nil
  | arguments _ ih => exact ih
  | one _ ih => exact ih
  | more _ _ ih₁ ih₂ => exact hP.append ih₁ (hP.before hcross rfl ih₂)
  | absent => exact hP.nil
  | @present _ k _ _ _ _ ih => exact hP.word hcross k ih

end Piecewise
end QueryCanon
