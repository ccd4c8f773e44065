/-
Relations between readers that the grammar carries over.

A congruence relates each reader that enters no nested one to itself, and two readers put
together in the same way from related ones.  The readers of the grammar take their nested
expressions from a parameter; for related parameters they are related, whatever the
relation is.
-/
import QueryCanon.Grammar.Script

namespace QueryCanon
namespace Grammar

open Reader

/-- Enters no nested reader, and meets no limit. -/
structure Flat (r : Reader α) : Prop where
  descents : ∀ ts, r.descents ts = []
  notDeep : ∀ ts rest, r.read ts ≠ .failed .tooDeep rest

namespace Flat

theorem pure (a : α) : Flat (Pure.pure a : Reader α) := ⟨fun _ => rfl, nofun⟩

theorem fail {fault : Fault} (h : fault ≠ .tooDeep) : Flat (fail fault : Reader α) :=
  ⟨fun _ => rfl, fun _ _ hread => by cases hread; exact h rfl⟩

theorem place : Flat place := ⟨fun _ => rfl, nofun⟩

theorem atEnd : Flat atEnd := ⟨fun _ => rfl, nofun⟩

theorem accept (pattern : List Token) : Flat (accept pattern) := by
  refine ⟨fun _ => rfl, fun ts rest => ?_⟩
  simp only [Reader.accept]
  split <;> nofun

theorem takeIf (f : Token → Option α) : Flat (takeIf f) := by
  refine ⟨fun _ => rfl, fun ts rest => ?_⟩
  cases ts with
  | nil =>
    intro hread
    cases hread
  | cons t ts =>
    simp only [Reader.takeIf]
    intro hread
    cases hf : f t <;> rw [hf] at hread <;> cases hread

end Flat

structure Congruence (R : {α : Type} → Reader α → Reader α → Prop) : Prop where
  flat : ∀ {α : Type} {r : Reader α}, Flat r → R r r
  bind : ∀ {α β : Type} {r r' : Reader α} {f f' : α → Reader β},
    R r r' → (∀ a, R (f a) (f' a)) → R (r >>= f) (r' >>= f')
  repeated : ∀ {α : Type} {next next' : Token → Option (Reader α)},
    (∀ t, Option.Rel R (next t) (next' t)) → R (repeated next) (repeated next')
  dispatch : ∀ {α : Type} {next next' : Token → Option (Reader α)} (wanted : Wanted),
    (∀ t, Option.Rel R (next t) (next' t)) → R (dispatch next wanted) (dispatch next' wanted)

namespace Congruence

variable {R : {α : Type} → Reader α → Reader α → Prop} {α β : Type} {r r' : Reader α}

theorem rel_or {o p o' p' : Option (Reader α)} (ho : Option.Rel R o o') (hp : Option.Rel R p p') :
    Option.Rel R (o.or p) (o'.or p') := by
  cases ho with
  | none => exact hp
  | some hr => exact .some hr

section Combinators

variable (h : Congruence R)
include h

theorem pure (a : α) : R (Pure.pure a : Reader α) (Pure.pure a) := h.flat (.pure a)

theorem fail {fault : Fault} (hfault : fault ≠ .tooDeep) :
    R (fail fault : Reader α) (fail fault) :=
  h.flat (.fail hfault)

/-- Whether a pattern comes next decides between two readers. -/
theorem accept_bind {x x' y y' : Reader α} (pattern : List Token) (hx : R x x') (hy : R y y') :
    R (accept pattern >>= fun b => if b = true then x else y)
      (accept pattern >>= fun b => if b = true then x' else y') := by
  refine h.bind (h.flat (.accept pattern)) fun b => ?_
  cases b with
  | false => exact hy
  | true => exact hx

theorem takeIf (f : Token → Option α) : R (takeIf f) (takeIf f) := h.flat (.takeIf f)

theorem require (f : Token → Option α) (wanted : Wanted) :
    R (require f wanted) (require f wanted) := by
  refine h.bind (h.takeIf f) fun o => ?_
  cases o with
  | none => exact h.fail nofun
  | some a => exact h.pure a

/-- What must hold where the reader stands. -/
theorem check {r : Reader Bool} (hr : Flat r) {fault : Fault} (hfault : fault ≠ .tooDeep) :
    R (do unless ← r do Reader.fail fault) (do unless ← r do Reader.fail fault) := by
  refine h.bind (h.flat hr) fun b => ?_
  cases b with
  | false => exact h.fail hfault
  | true => exact h.pure ()

theorem expect (t : Token) : R (expect t) (expect t) := h.check (.accept _) nofun

theorem expectKeyword (k : Keyword) : R (expectKeyword k) (expectKeyword k) :=
  h.check (.accept _) nofun

theorem endOfInput : R endOfInput endOfInput := h.check .atEnd nofun

/-- `r` and nothing else. -/
theorem whole (hr : R r r') :
    R (do let a ← r; Reader.endOfInput; return a) (do let a ← r'; Reader.endOfInput; return a) :=
  h.bind hr fun _ => h.bind h.endOfInput fun _ => h.pure _

/-- `r` and nothing else but perhaps a token `t`. -/
theorem closed (t : Token) (hr : R r r') :
    R (do let a ← r; let _ ← accept [t]; Reader.endOfInput; return a)
      (do let a ← r'; let _ ← accept [t]; Reader.endOfInput; return a) :=
  h.bind hr fun _ => h.bind (h.flat (.accept _)) fun _ => h.bind h.endOfInput fun _ => h.pure _

/-- `r` behind each of the tokens `t` that follow. -/
theorem behindEach (t : Token) (hr : R r r') :
    R (Reader.repeated fun u => if u = t then some r else none)
      (Reader.repeated fun u => if u = t then some r' else none) := by
  refine h.repeated fun u => ?_
  by_cases hu : u = t
  · rw [if_pos hu, if_pos hu]
    exact .some hr
  · rw [if_neg hu, if_neg hu]
    exact .none

theorem commaList (hr : R r r') : R (commaList r) (commaList r') :=
  h.bind hr fun _ => h.bind (h.behindEach .comma hr) fun _ => h.pure _

theorem enclosed (hr : R r r') : R (enclosed r) (enclosed r') :=
  h.bind (h.flat .place) fun _ => h.bind hr fun a =>
    h.accept_bind _ (h.pure a) (h.fail nofun)

theorem inParens (hr : R r r') : R (inParens r) (inParens r') :=
  h.bind (h.expect _) fun _ => h.enclosed hr

theorem introduced (k : Keyword) (hr : R r r') : R (introduced k r) (introduced k r') :=
  h.accept_bind _ (h.bind hr fun a => h.pure (some a)) (h.pure none)

/-! ### Parts without expressions -/

theorem identifier (wanted : Wanted) : R (identifier wanted) (identifier wanted) :=
  h.require identifier? wanted

theorem qualified (wanted : Wanted) : R (qualified wanted) (qualified wanted) :=
  h.bind (h.identifier wanted) fun _ =>
    h.accept_bind _ (h.bind (h.identifier wanted) fun _ => h.pure _) (h.pure _)

theorem columnRef : R columnRef columnRef :=
  h.bind (h.qualified .columnName) fun _ => h.pure _

theorem tableRef : R tableRef tableRef :=
  h.bind (h.qualified .tableName) fun _ => h.bind (h.takeIf identifier?) fun _ => h.pure _

theorem orderTarget : R orderTarget orderTarget := by
  refine h.bind (h.takeIf integer?) fun o => ?_
  cases o with
  | none => exact h.bind h.columnRef fun c => h.pure _
  | some text => exact h.pure _

theorem orderItem : R orderItem orderItem :=
  h.bind h.orderTarget fun _ => h.bind (h.takeIf direction?) fun _ =>
    h.bind (h.introduced .NULLS (h.require nullsPlace? .nullsPlace)) fun _ => h.pure _

theorem listBy (k : Keyword) (hr : R r r') : R (listBy k r) (listBy k r') :=
  h.accept_bind _ (h.bind (h.expectKeyword .BY) fun _ => h.commaList hr) (h.pure [])

theorem scope : R scope scope :=
  h.accept_bind _ (h.bind (h.identifier .scopeName) fun _ => h.pure _) (h.pure none)

theorem outerJoin (long short : JoinKind) : R (outerJoin long short) (outerJoin long short) := by
  refine h.bind (h.flat (.accept _)) fun b => ?_
  cases b <;> exact h.bind (h.expectKeyword .JOIN) fun _ => h.pure _

theorem joinKind {t : Token} {r : Reader JoinKind} (hr : joinKind t = some r) : R r r := by
  unfold Grammar.joinKind at hr
  split at hr
  case h_8 => cases hr
  all_goals cases hr
  · exact h.pure _
  · exact h.pure _
  · exact h.bind (h.expectKeyword .JOIN) fun _ => h.pure _
  · exact h.outerJoin _ _
  · exact h.outerJoin _ _
  · exact h.outerJoin _ _
  · exact h.bind (h.expectKeyword .JOIN) fun _ => h.pure _

end Combinators

/-! ### Clauses -/

variable {sub sub' : Level → Reader Expr}

section Clauses

variable (h : Congruence R) (hsub : ∀ level, R (sub level) (sub' level))
include h hsub

theorem selectItem : R (selectItem sub) (selectItem sub') := by
  refine h.bind (h.flat (.accept _)) fun b => ?_
  cases b with
  | false =>
    exact h.bind (hsub .disjunction) fun e => h.bind (h.takeIf identifier?) fun _ => h.pure _
  | true => exact h.bind (h.pure _) fun e => h.bind (h.takeIf identifier?) fun _ => h.pure _

theorem joinCondition : R (joinCondition sub) (joinCondition sub') := by
  refine h.accept_bind _ (h.bind (hsub .disjunction) fun _ => h.pure _) ?_
  refine h.accept_bind _ (h.bind (h.inParens (h.commaList ?_)) fun _ => h.pure _) (h.fail nofun)
  exact h.identifier .columnName

theorem conditionOf (kind : JoinKind) : R (conditionOf sub kind) (conditionOf sub' kind) := by
  cases kind with
  | cross => exact h.pure none
  | _ => exact h.bind (h.joinCondition hsub) fun _ => h.pure _

theorem joined (t : Token) : Option.Rel R (joined sub t) (joined sub' t) := by
  unfold Grammar.joined
  cases hk : Grammar.joinKind t with
  | none => exact .none
  | some kindReader =>
    exact .some (h.bind (h.joinKind hk) fun kind => h.bind h.tableRef fun _ =>
      h.bind (h.conditionOf hsub kind) fun _ => h.pure _)

theorem source : R (source sub) (source sub') :=
  h.bind h.tableRef fun _ => h.bind (h.repeated (h.joined hsub)) fun _ => h.pure _

theorem queryBody : R (queryBody sub) (queryBody sub') :=
  h.bind (h.commaList (h.selectItem hsub)) fun _ =>
  h.bind (h.introduced .FROM (h.source hsub)) fun _ =>
  h.bind h.scope fun _ =>
  h.bind (h.introduced .WHERE (hsub .disjunction)) fun _ =>
  h.bind (h.listBy .GROUP h.columnRef) fun _ =>
  h.bind (h.introduced .HAVING (hsub .disjunction)) fun _ =>
  h.bind (h.listBy .ORDER h.orderItem) fun _ =>
  h.bind (h.introduced .LIMIT (h.require integer? .rowCount)) fun _ => h.pure _

theorem query : R (query sub) (query sub') :=
  h.bind (h.expectKeyword .SELECT) fun _ => h.queryBody hsub

/-! ### Tails -/

theorem inTail (negated : Bool) : R (inTail sub negated) (inTail sub' negated) :=
  h.inParens (h.accept_bind _ (h.bind (h.queryBody hsub) fun _ => h.pure _)
    (h.bind (h.commaList (hsub .disjunction)) fun _ => h.pure _))

theorem betweenTail (negated : Bool) : R (betweenTail sub negated) (betweenTail sub' negated) :=
  h.bind (hsub .operand) fun _ => h.bind (h.expectKeyword .AND) fun _ =>
    h.bind (hsub .operand) fun _ => h.pure _

theorem predicateTail (negated : Bool) (t : Token) :
    Option.Rel R (predicateTail sub negated t) (predicateTail sub' negated t) := by
  unfold Grammar.predicateTail
  split
  · exact .some (h.inTail hsub negated)
  · exact .some (h.betweenTail hsub negated)
  · exact .some (h.bind (hsub .operand) fun _ => h.pure _)
  · exact .none

theorem comparisonTail (t : Token) :
    Option.Rel R (comparisonTail sub t) (comparisonTail sub' t) := by
  unfold Grammar.comparisonTail
  split
  · exact .some (h.bind (h.flat (.accept _)) fun _ => h.bind (h.expectKeyword .NULL) fun _ =>
      h.pure _)
  · exact .some (h.dispatch _ (h.predicateTail hsub true))
  · split
    · exact .some (h.bind (hsub .operand) fun _ => h.pure _)
    · exact h.predicateTail hsub false _

theorem andTail (t : Token) : Option.Rel R (andTail sub t) (andTail sub' t) := by
  unfold Grammar.andTail
  split
  · exact .some (h.bind (hsub .comparison) fun _ => h.pure _)
  · exact .none

theorem orTail (t : Token) : Option.Rel R (orTail sub t) (orTail sub' t) := by
  unfold Grammar.orTail
  split
  · exact .some (h.bind (hsub .conjunction) fun _ => h.pure _)
  · exact .none

theorem tail (level : Level) (t : Token) : Option.Rel R (tail sub level t) (tail sub' level t) := by
  cases level with
  | operand => exact .none
  | comparison => exact h.comparisonTail hsub t
  | conjunction => exact rel_or (h.andTail hsub t) (h.comparisonTail hsub t)
  | disjunction =>
    exact rel_or (h.orTail hsub t) (rel_or (h.andTail hsub t) (h.comparisonTail hsub t))

/-! ### Operands -/

theorem rowTest (negated : Bool) : R (rowTest sub negated) (rowTest sub' negated) :=
  h.bind (h.inParens (h.query hsub)) fun _ => h.pure _

theorem negation : R (negation sub) (negation sub') :=
  h.accept_bind _ (h.rowTest hsub true) (h.bind (hsub .comparison) fun _ => h.pure _)

theorem parenthesis : R (parenthesis sub) (parenthesis sub') :=
  h.enclosed (h.accept_bind _ (h.bind (h.queryBody hsub) fun _ => h.pure _)
    (h.bind (hsub .disjunction) fun _ => h.pure _))

theorem arguments : R (arguments sub) (arguments sub') :=
  h.accept_bind _ (h.pure []) (h.enclosed (h.accept_bind _ (h.pure _)
    (h.commaList (hsub .disjunction))))

theorem named (name : String) : R (named sub name) (named sub' name) :=
  h.accept_bind _ (h.bind (h.arguments hsub) fun _ => h.pure _)
    (h.accept_bind _ (h.bind (h.identifier .columnName) fun _ => h.pure _) (h.pure _))

theorem operand (t : Token) : Option.Rel R (operand sub t) (operand sub' t) := by
  unfold Grammar.operand
  split
  case h_6 => exact .some (h.negation hsub)
  case h_7 => exact .some (h.rowTest hsub false)
  case h_8 => exact .some (h.parenthesis hsub)
  case h_9 => exact .some (h.named hsub _)
  case h_10 => exact .none
  all_goals exact .some (h.pure _)

theorem operandAndTails
    (level : Level) : R (operandAndTails sub level) (operandAndTails sub' level) :=
  h.bind (h.dispatch _ (h.operand hsub)) fun _ => h.bind (h.repeated (h.tail hsub level)) fun _ =>
    h.pure _

end Clauses

/-! ### Scripts -/

theorem script (h : Congruence R) {n m : Nat}
    (hsub : ∀ level, R (expression n level) (expression m level)) : R (script n) (script m) := by
  have hslot : R (slot n) (slot m) := h.introduced .SELECT (h.queryBody hsub)
  refine h.bind hslot fun _ => h.bind (h.behindEach .semicolon hslot) fun _ =>
    h.bind (h.flat .atEnd) fun b => ?_
  cases b with
  | false => exact h.bind (h.fail nofun) fun _ => h.pure _
  | true => exact h.pure _

end Congruence
end Grammar
end QueryCanon
