/-
Breadth costs no depth.

Parts that fit under a limit each fit together: in a list, as the conditions of joins, and
as the operands of a chain of operators.  How many they are is no matter.  Only the limit
may have to grow, by the same few levels for every number of parts.
-/
import QueryCanon.Proofs.Grammar.Rereading

namespace QueryCanon
namespace Grammar

open Reader

variable {n : Nat} {ts : List Token}

theorem wholeExpression_done_iff {rest : List Token} {e : Expr} :
    (wholeExpression n).read ts = .done e rest ↔
      rest = [] ∧ Derives .longest n .expression ts e := by
  constructor
  · intro h
    obtain ⟨e', mid, hread, hleft⟩ := bind_done.mp h
    obtain ⟨_, _, hend, hpure⟩ := bind_done.mp hleft
    obtain ⟨rfl, rfl⟩ := endOfInput_done.mp hend
    cases hpure
    obtain ⟨used, rfl, hd⟩ := (expression_sound n).whole hread
    exact ⟨rfl, by simpa using hd⟩
  · rintro ⟨rfl, hd⟩
    exact wholeExpression_reads.complete hd

/-- The tokens are an expression that a limit of `n` has room for. -/
def FitsLimit (n : Nat) (ts : List Token) : Prop := ∃ e, (wholeExpression n).read ts = .done e []

theorem fitsLimit_iff : FitsLimit n ts ↔ ∃ e, Derives .longest n .expression ts e :=
  exists_congr fun _ => wholeExpression_done_iff.trans (and_iff_right rfl)

/-! ### Lists -/

theorem Derives.list {s : Symbol} {parts : List (List Token)} (hne : parts ≠ [])
    (h : ∀ part ∈ parts, ∃ v, Derives .longest n s part v) :
    ∃ vs, Derives .longest n (.list s) (commaSeparated parts) vs := by
  induction parts with
  | nil => exact absurd rfl hne
  | cons part parts ih =>
    obtain ⟨v, hd⟩ := h part List.mem_cons_self
    by_cases hmore : parts = []
    · subst hmore
      exact ⟨[v], by simpa [commaSeparated] using hd.one⟩
    · obtain ⟨vs, hds⟩ := ih hmore fun part hpart => h part (List.mem_cons_of_mem _ hpart)
      rw [commaSeparated_cons hmore]
      exact ⟨v :: vs, hd.more hds⟩

/-! ### Chains of operators -/

/-- The operators that stand between two operands. -/
inductive Links : Token → Prop
  | or : Links (.keyword .OR)
  | and : Links (.keyword .AND)
  | compare (op : Comparison) : Links op.token

/-- The tokens are an operand that a limit of `n` has room for, and no operator behind them
is drawn into it. -/
def OperandFits (n : Nat) (ts : List Token) : Prop :=
  ∃ e, Derives .longest n (.operand .closed) ts e

/-- In parentheses every expression is one. -/
theorem FitsLimit.enclosed (h : FitsLimit n ts) : OperandFits (n + 1) (enclose ts) := by
  obtain ⟨e, hd⟩ := fitsLimit_iff.mp h
  exact ⟨.paren e, hd.paren⟩

/-- Operands, each behind its operator but the first. -/
def chain (first : List Token) (links : List (Token × List Token)) : List Token :=
  first ++ links.flatMap fun link => link.1 :: link.2

/-- A chain that has come to the comparison `ms`, behind `cs` that an `AND` ends and `ds` that
an `OR` ends, or behind nothing. -/
structure Begun (n : Nat) (ds cs ms : List Token) : Prop where
  disjunction : ∀ {us e}, Derives .longest (n + 2) .conjunction us e →
    ∃ e', Derives .longest (n + 3) .disjunction (ds ++ us) e'
  conjunction : ∀ {us e}, Derives .longest (n + 1) (.comparison .closed) us e →
    ∃ e', Derives .longest (n + 2) .conjunction (cs ++ us) e'
  comparison : ∃ e, Derives .longest (n + 1) (.comparison .closed) ms e

theorem OperandFits.comparison (h : OperandFits n ts) :
    ∃ e, Derives .longest (n + 1) (.comparison .closed) ts e := by
  obtain ⟨e, hd⟩ := h
  exact ⟨e, hd.succ.operand⟩

theorem OperandFits.begun (h : OperandFits n ts) : Begun n [] [] ts where
  disjunction hd := ⟨_, hd.succ.conjunction⟩
  conjunction hd := ⟨_, hd.succ.comparison⟩
  comparison := h.comparison

variable {ds cs ms : List Token}

theorem Begun.or (h : Begun n ds cs ms) (ht : OperandFits n ts) :
    Begun n (ds ++ (cs ++ ms) ++ [.keyword .OR]) [] ts where
  disjunction {us e} hd := by
    obtain ⟨m, hm⟩ := h.comparison
    obtain ⟨c, hc⟩ := h.conjunction hm
    obtain ⟨d, hd'⟩ := h.disjunction hc
    exact ⟨.or d e, by simpa using hd'.or hd⟩
  conjunction hd := ⟨_, hd.succ.comparison⟩
  comparison := ht.comparison

theorem Begun.and (h : Begun n ds cs ms) (ht : OperandFits n ts) :
    Begun n ds (cs ++ ms ++ [.keyword .AND]) ts where
  disjunction := h.disjunction
  conjunction {us e} hd := by
    obtain ⟨m, hm⟩ := h.comparison
    obtain ⟨c, hc⟩ := h.conjunction hm
    exact ⟨.and c e, by simpa using hc.and hd⟩
  comparison := ht.comparison

theorem Begun.compare (op : Comparison) (h : Begun n ds cs ms) (ht : OperandFits n ts) :
    Begun n ds cs (ms ++ op.token :: ts) where
  disjunction := h.disjunction
  conjunction := h.conjunction
  comparison := by
    obtain ⟨m, hm⟩ := h.comparison
    obtain ⟨e, he⟩ := ht
    have htail : Derives .longest (n + 1) (.tail .closed) (op.token :: ts) (.compare op e) :=
      he.compare
    exact ⟨_, hm.tail (fun _ => rfl) htail⟩

/-- A chain, however long, is an expression. -/
theorem Begun.links {links : List (Token × List Token)} (h : Begun n ds cs ms)
    (hlinks : ∀ link ∈ links, Links link.1 ∧ OperandFits n link.2) :
    ∃ e, Derives .longest (n + 3) .disjunction
      (ds ++ (cs ++ (ms ++ links.flatMap fun link => link.1 :: link.2))) e := by
  induction links generalizing ds cs ms with
  | nil =>
    obtain ⟨m, hm⟩ := h.comparison
    obtain ⟨c, hc⟩ := h.conjunction hm
    obtain ⟨d, hd⟩ := h.disjunction hc
    exact ⟨d, by simpa using hd⟩
  | cons link links ih =>
    obtain ⟨op, part⟩ := link
    obtain ⟨⟨hop, hpart⟩, hmore⟩ := List.forall_mem_cons.mp hlinks
    cases hop with
    | or => simpa using ih (h.or hpart) hmore
    | and => simpa using ih (h.and hpart) hmore
    | compare op => simpa [Comparison.token] using ih (h.compare op hpart) hmore

/-! ### Joins -/

/-- `SELECT * FROM first JOIN table ON part JOIN …` -/
def joinedQuery (first : TableRef) (joins : List (TableRef × List Token)) : List Token :=
  .keyword .SELECT :: .star :: .keyword .FROM :: (first.tokens ++
    joins.flatMap fun join => .keyword .JOIN :: (join.1.tokens ++ .keyword .ON :: join.2))

theorem Derives.joins {left : Source} {joins : List (TableRef × List Token)}
    (hl : Derives .longest n .source ts left) (h : ∀ join ∈ joins, FitsLimit n join.2) :
    ∃ s, Derives .longest n .source
      (ts ++ joins.flatMap fun join => .keyword .JOIN :: (join.1.tokens ++ .keyword .ON :: join.2))
      s := by
  induction joins generalizing ts left with
  | nil => exact ⟨left, by simpa using hl⟩
  | cons join joins ih =>
    obtain ⟨t, part⟩ := join
    obtain ⟨hpart, hmore⟩ := List.forall_mem_cons.mp h
    obtain ⟨e, he⟩ := fitsLimit_iff.mp hpart
    have htest : Derives .longest n (.link .inner) (.keyword .ON :: part) (some (.test e)) :=
      he.test nofun
    have hjoin := hl.join (t := t) .plain htest
    simpa using ih hjoin hmore

/-! ### Breadth -/

theorem Derives.select {us : List Token} {items : List SelectItem} {source : Option Source}
    (hitems : Derives .longest n (.list .item) ts items)
    (hsource : Derives .longest n (.clause .FROM .source) us source) :
    ∃ q, (wholeStatement n).read (.keyword .SELECT :: (ts ++ us)) = .done q [] := by
  have hd : Derives .longest n .query _ ⟨items, source, none, none, [], none, [], none⟩ :=
    hitems.query hsource .absent .absent
  exact ⟨_, wholeStatement_reads.complete (by simpa [scopeTokens, byTokens, limitTokens] using hd)⟩

/-- Parts that a limit of `n` has room for, as many as there may be. -/
structure Broad (n : Nat) : Prop where
  list : ∀ parts ≠ [], (∀ part ∈ parts, FitsLimit n part) →
    ∃ q, (wholeStatement n).read (.keyword .SELECT :: commaSeparated parts) = .done q []
  call : ∀ name, ∀ parts ≠ [], (∀ part ∈ parts, FitsLimit n part) →
    FitsLimit (n + 1) (.identifier name :: enclose (commaSeparated parts))
  joins : ∀ first joins, (∀ join ∈ joins, FitsLimit n join.2) →
    ∃ q, (wholeStatement n).read (joinedQuery first joins) = .done q []
  enclosed : ∀ part, FitsLimit n part → OperandFits (n + 1) (enclose part)
  chain : ∀ first links, OperandFits n first →
    (∀ link ∈ links, Links link.1 ∧ OperandFits n link.2) → FitsLimit (n + 3) (chain first links)

theorem broad (n : Nat) : Broad n where
  list parts hne h := by
    obtain ⟨items, hd⟩ := Derives.list (s := .item) hne fun part hpart => by
      obtain ⟨e, he⟩ := fitsLimit_iff.mp (h part hpart)
      exact ⟨⟨e, none⟩, he.bareItem⟩
    simpa using hd.select .absent
  call name parts hne h := by
    obtain ⟨args, hd⟩ := Derives.list hne fun part hpart => fitsLimit_iff.mp (h part hpart)
    exact fitsLimit_iff.mpr ⟨_, hd.arguments.call.operand.comparison.conjunction.expression⟩
  joins first joins h := by
    obtain ⟨s, hd⟩ := Derives.joins (.table (t := first)) h
    exact Derives.bareStar.one.select hd.present
  enclosed _ h := h.enclosed
  chain first links hfirst hlinks := by
    obtain ⟨e, hd⟩ := hfirst.begun.links hlinks
    exact fitsLimit_iff.mpr ⟨e, hd.expression⟩

end Grammar
end QueryCanon
