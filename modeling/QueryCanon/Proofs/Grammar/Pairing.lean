/-
The parenthesis that is not closed.

What a reader takes leaves no parenthesis open.  So if a parenthesis is not closed where
reading stops, everything that was opened behind it has been closed by then: the fault names
the innermost one that is open there.
-/
import QueryCanon.Grammar.Script
import QueryCanon.Proofs.Grammar.Balance
import QueryCanon.Proofs.Grammar.Failing

namespace QueryCanon
namespace Grammar

open Reader

variable {α β : Type} {ts used rest before : List Token} {t : Token} {fault : Fault}

/-- What is wanted is the parenthesis that closes another. -/
def isClosing : Wanted → Bool
  | .closing _ => true
  | _ => false

/-- If the fault is that a parenthesis is not closed, it is the innermost of those that are
open behind `used`, where `rest` is left; and no other fault is about one. -/
def Fault.Innermost (used rest : List Token) : Fault → Prop
  | .expected wanted => isClosing wanted = false
  | .unclosed opened =>
    ∃ outer inner, used = outer ++ .leftParen :: inner ∧ Balanced inner ∧
      opened = (inner ++ rest).length + 1
  | .tooDeep => True

theorem Fault.Innermost.behind (h : fault.Innermost used rest) (before : List Token) :
    fault.Innermost (before ++ used) rest := by
  cases fault with
  | unclosed opened =>
    obtain ⟨outer, inner, rfl, hinner, hopened⟩ := h
    exact ⟨before ++ outer, inner, by simp, hinner, hopened⟩
  | expected wanted => exact h
  | tooDeep => trivial

/-- Behind `before`, the reader leaves no parenthesis open, or fails and names the innermost
one that is. -/
structure Pairing (before : List Token) (r : Reader α) : Prop where
  takes : ∀ {ts a rest}, r.read ts = .done a rest →
    ∃ used, ts = used ++ rest ∧ Balanced (before ++ used)
  stops : ∀ {ts fault rest}, r.read ts = .failed fault rest →
    ∃ used, ts = used ++ rest ∧ fault.Innermost (before ++ used) rest

namespace Pairing

variable {r : Reader α} {f : α → Reader β} {pattern : List Token} {x y : Reader α}
  {next : Token → Option (Reader α)}

/-! ### Combinators -/

theorem behind (h : Pairing [] r) (hbefore : Balanced before) : Pairing before r where
  takes hread := by
    obtain ⟨used, hts, hused⟩ := h.takes hread
    exact ⟨used, hts, hbefore.append hused⟩
  stops hread := by
    obtain ⟨used, hts, hinnermost⟩ := h.stops hread
    exact ⟨used, hts, hinnermost.behind before⟩

theorem pure {a : α} (h : Balanced before) : Pairing before (Pure.pure a) where
  takes hread := by
    cases hread
    exact ⟨[], rfl, by rwa [List.append_nil]⟩
  stops hread := nomatch hread

theorem fail (h : ∀ used rest, fault.Innermost used rest) :
    Pairing before (fail fault : Reader α) where
  takes hread := absurd hread fail_not_done
  stops hread := by
    obtain ⟨rfl, rfl⟩ := fail_failed.mp hread
    exact ⟨[], rfl, h _ _⟩

theorem missing {wanted : Wanted} (h : isClosing wanted = false) :
    Pairing before (Reader.fail (.expected wanted) : Reader α) := fail fun _ _ => h

theorem bind (hr : Pairing before r) (hf : ∀ a, Pairing [] (f a)) : Pairing before (r >>= f) where
  takes hread := by
    obtain ⟨a, mid, hfirst, hmore⟩ := bind_done.mp hread
    obtain ⟨us, rfl, hus⟩ := hr.takes hfirst
    obtain ⟨vs, rfl, hvs⟩ := (hf a).takes hmore
    refine ⟨us ++ vs, (List.append_assoc _ _ _).symm, ?_⟩
    rw [← List.append_assoc]
    exact hus.append hvs
  stops hread := by
    rcases bind_failed.mp hread with hfirst | ⟨a, mid, hfirst, hmore⟩
    · exact hr.stops hfirst
    · obtain ⟨us, rfl, hus⟩ := hr.takes hfirst
      obtain ⟨vs, rfl, hinnermost⟩ := (hf a).stops hmore
      refine ⟨us ++ vs, (List.append_assoc _ _ _).symm, ?_⟩
      rw [← List.append_assoc]
      exact hinnermost.behind (before ++ us)

theorem map (hr : Pairing before r) (g : α → β) : Pairing before (r >>= fun a => Pure.pure (g a)) :=
  hr.bind fun _ => pure .nil

/-- With a pattern or without it. -/
theorem accept (hx : Pairing (before ++ pattern) x) (hy : Pairing before y) :
    Pairing before (Reader.accept pattern >>= fun b => if b = true then x else y) where
  takes {ts _ _} hread := by
    rcases accept_bind_cases pattern (fun b => if b = true then x else y) ts with
      ⟨us, rfl, heq⟩ | heq
    · obtain ⟨used, rfl, hused⟩ := hx.takes (heq.symm.trans hread)
      exact ⟨pattern ++ used, by simp, by simpa using hused⟩
    · exact hy.takes (heq.symm.trans hread)
  stops {ts _ _} hread := by
    rcases accept_bind_cases pattern (fun b => if b = true then x else y) ts with
      ⟨us, rfl, heq⟩ | heq
    · obtain ⟨used, rfl, hinnermost⟩ := hx.stops (heq.symm.trans hread)
      exact ⟨pattern ++ used, by simp, by simpa using hinnermost⟩
    · exact hy.stops (heq.symm.trans hread)

theorem accepted (h : Balanced pattern) : Pairing [] (Reader.accept pattern) := by
  have hpure : (fun b => if b = true then Pure.pure true else Pure.pure false) =
      (Pure.pure : Bool → Reader Bool) := by
    funext b
    cases b <;> rfl
  have hpairing : Pairing [] (Reader.accept pattern >>= fun b =>
      if b = true then Pure.pure true else Pure.pure false) :=
    accept (pure h) (pure .nil)
  rwa [hpure, bind_pure] at hpairing

theorem atEnd {f : Bool → Reader β} (hf : ∀ b, Pairing [] (f b)) :
    Pairing [] (Reader.atEnd >>= f) where
  takes {ts _ _} hread := (hf ts.isEmpty).takes hread
  stops {ts _ _} hread := (hf ts.isEmpty).stops hread

/-- With the value of a token or without one. -/
theorem takeIf_bind {γ : Type} {p : Token → Option γ} {f : Option γ → Reader β}
    (hsome : ∀ t c, p t = some c → Pairing [t] (f (some c))) (hnone : Pairing [] (f none)) :
    Pairing [] (Reader.takeIf p >>= f) where
  takes hread := by
    rcases takeIf_bind_done.mp hread with ⟨t, us, c, rfl, hc, hread⟩ | ⟨-, hread⟩
    · obtain ⟨used, rfl, hused⟩ := (hsome t c hc).takes hread
      exact ⟨t :: used, rfl, hused⟩
    · exact hnone.takes hread
  stops hread := by
    rcases takeIf_bind_failed.mp hread with ⟨t, us, c, rfl, hc, hread⟩ | ⟨-, hread⟩
    · obtain ⟨used, rfl, hinnermost⟩ := (hsome t c hc).stops hread
      exact ⟨t :: used, rfl, hinnermost⟩
    · exact hnone.stops hread

theorem takeIf {γ : Type} {p : Token → Option γ} (h : ∀ t c, p t = some c → Balanced [t]) :
    Pairing [] (Reader.takeIf p) := by
  have hpairing : Pairing [] (Reader.takeIf p >>= Pure.pure) :=
    takeIf_bind (fun t c hc => pure (h t c hc)) (pure .nil)
  rwa [bind_pure] at hpairing

theorem require {γ : Type} {p : Token → Option γ} {wanted : Wanted}
    (hwanted : isClosing wanted = false) (h : ∀ t c, p t = some c → Balanced [t]) :
    Pairing [] (require p wanted) :=
  takeIf_bind (fun t c hc => pure (h t c hc)) (missing hwanted)

theorem dispatch {wanted : Wanted} (hwanted : isClosing wanted = false)
    (h : ∀ t r, next t = some r → Pairing [t] r) : Pairing [] (dispatch next wanted) :=
  takeIf_bind h (missing hwanted)

theorem expectKeyword (k : Keyword) : Pairing [] (Reader.expectKeyword k) :=
  accept (pure rfl) (missing rfl)

theorem endOfInput : Pairing [] Reader.endOfInput :=
  atEnd fun b => by
    cases b
    · exact missing rfl
    · exact pure .nil

/-- Round after round, each of which leaves no parenthesis open. -/
theorem repeated (h : ∀ t r, next t = some r → Pairing [t] r) : Pairing [] (repeated next) where
  takes hread := by
    refine repeated_done_induction (P := fun ts _ rest => ∃ used, ts = used ++ rest ∧
      Balanced ([] ++ used)) ?_ ?_ hread
    · exact fun ts _ => ⟨[], rfl, .nil⟩
    · rintro t us r a mid as rest ht hread ⟨used', rfl, hused'⟩
      obtain ⟨used, rfl, hused⟩ := (h t r ht).takes hread
      exact ⟨t :: used ++ used', by simp, hused.append hused'⟩
  stops {_ fault rest} hread := by
    refine repeated_failed_induction (P := fun ts => ∃ used, ts = used ++ rest ∧
      fault.Innermost ([] ++ used) rest) ?_ ?_ hread
    · intro t us r ht hread
      obtain ⟨used, rfl, hinnermost⟩ := (h t r ht).stops hread
      exact ⟨t :: used, rfl, hinnermost⟩
    · rintro t us r a mid ht hread ⟨used', rfl, hinnermost⟩
      obtain ⟨used, rfl, -⟩ := (h t r ht).takes hread
      exact ⟨t :: used ++ used', by simp, hinnermost.behind (t :: used)⟩

theorem commaList (h : Pairing [] r) : Pairing [] (commaList r) := by
  refine h.bind fun first => map (repeated fun t r' ht => ?_) _
  split at ht <;> cases ht
  next hcomma =>
    subst hcomma
    exact h.behind rfl

theorem introduced {k : Keyword} (h : Pairing [] r) : Pairing [] (introduced k r) :=
  accept ((h.behind (by rfl)).map some) (pure .nil)

theorem listBy {k : Keyword} (h : Pairing [] r) : Pairing [] (listBy k r) :=
  accept (((expectKeyword .BY).behind (by rfl)).bind fun _ => h.commaList) (pure .nil)

/-- The parenthesis that `r` stands behind is closed, or it is the innermost one, since `r` has
closed its own. -/
theorem enclosed (h : Pairing [] r) : Pairing [.leftParen] (enclosed r) where
  takes hread := by
    obtain ⟨used, rfl, hused⟩ := h.takes (enclosed_done.mp hread)
    exact ⟨used ++ [.rightParen], by simp, hused.enclose⟩
  stops hread := by
    rcases enclosed_failed.mp hread with hinner | ⟨a, hinner, -, rfl⟩
    · obtain ⟨used, rfl, hinnermost⟩ := h.stops hinner
      exact ⟨used, rfl, hinnermost.behind [.leftParen]⟩
    · obtain ⟨used, rfl, hused⟩ := h.takes hinner
      exact ⟨used, rfl, [], used, rfl, hused, rfl⟩

theorem inParens (h : Pairing [] r) : Pairing [] (inParens r) where
  takes hread := by
    obtain ⟨us, rfl, hr⟩ := inParens_done.mp hread
    obtain ⟨used, rfl, hused⟩ := h.enclosed.takes (enclosed_done.mpr hr)
    exact ⟨.leftParen :: used, rfl, hused⟩
  stops hread := by
    rcases inParens_failed.mp hread with ⟨-, rfl, rfl⟩ | ⟨us, rfl, hr⟩
    · exact ⟨[], rfl, rfl⟩
    · obtain ⟨used, rfl, hinnermost⟩ := h.enclosed.stops hr
      exact ⟨.leftParen :: used, rfl, hinnermost⟩

end Pairing

/-! ### Clauses -/

theorem pairing_identifier {wanted : Wanted} (h : isClosing wanted = false) :
    Pairing [] (identifier wanted) :=
  .require h fun t c h => by cases t <;> first | rfl | cases h

theorem pairing_integer {wanted : Wanted} (h : isClosing wanted = false) :
    Pairing [] (integer wanted) :=
  .require h fun t c h => by cases t <;> first | rfl | cases h

theorem pairing_label : Pairing [] label :=
  .takeIf fun t c h => by cases t <;> first | rfl | cases h

theorem pairing_qualified {wanted : Wanted} (h : isClosing wanted = false) :
    Pairing [] (qualified wanted) :=
  (pairing_identifier h).bind fun _ =>
    .accept (((pairing_identifier h).behind (by rfl)).map _) (.pure .nil)

theorem pairing_columnRef : Pairing [] columnRef := (pairing_qualified rfl).map _

theorem pairing_tableRef : Pairing [] tableRef :=
  (pairing_qualified rfl).bind fun _ => pairing_label.map _

theorem pairing_orderTarget : Pairing [] orderTarget :=
  .takeIf_bind (fun t c h => .pure (by cases t <;> first | rfl | cases h))
    (pairing_columnRef.map _)

theorem pairing_direction : Pairing [] (takeIf direction?) :=
  .takeIf fun t c h => by cases t <;> first | rfl | cases h

theorem pairing_nullsPlace : Pairing [] (require nullsPlace? .nullsPlace) :=
  .require rfl fun t c h => by cases t <;> first | rfl | cases h

theorem pairing_orderItem : Pairing [] orderItem :=
  pairing_orderTarget.bind fun _ => pairing_direction.bind fun _ =>
    pairing_nullsPlace.introduced.map _

theorem pairing_scope : Pairing [] scope :=
  .accept (((pairing_identifier rfl).behind (by rfl)).map some) (.pure .nil)

theorem pairing_outerJoin (long short : JoinKind) : Pairing [] (outerJoin long short) :=
  (Pairing.accepted (by rfl)).bind fun _ => (Pairing.expectKeyword .JOIN).map _

theorem pairing_joinKind {r : Reader JoinKind} (h : joinKind t = some r) : Pairing [t] r := by
  unfold joinKind at h
  split at h <;> cases h
  · exact .pure rfl
  · exact .pure rfl
  · exact ((Pairing.expectKeyword .JOIN).map _).behind rfl
  · exact (pairing_outerJoin _ _).behind rfl
  · exact (pairing_outerJoin _ _).behind rfl
  · exact (pairing_outerJoin _ _).behind rfl
  · exact ((Pairing.expectKeyword .JOIN).map _).behind rfl

section

variable {sub : Level → Reader Expr} (h : ∀ level, Pairing [] (sub level))
include h

theorem pairing_selectItem : Pairing [] (selectItem sub) :=
  .accept ((pairing_label.behind (by rfl)).map _)
    ((h .disjunction).bind fun _ => pairing_label.map _)

theorem pairing_joinCondition : Pairing [] (joinCondition sub) := by
  refine .accept (((h .disjunction).behind (by rfl)).map _) (.accept ?_ (.missing rfl))
  exact ((pairing_identifier rfl).commaList.inParens.behind (by rfl)).map _

theorem pairing_conditionOf (kind : JoinKind) : Pairing [] (conditionOf sub kind) := by
  cases kind with
  | cross => exact .pure .nil
  | _ => exact (pairing_joinCondition h).map some

theorem pairing_joined {r : Reader (Source → Source)} (ht : joined sub t = some r) :
    Pairing [t] r := by
  obtain ⟨kindReader, hkind, rfl⟩ := Option.map_eq_some_iff.mp ht
  exact (pairing_joinKind hkind).bind fun kind => pairing_tableRef.bind fun _ =>
    (pairing_conditionOf h kind).map _

theorem pairing_source : Pairing [] (source sub) :=
  pairing_tableRef.bind fun _ => (Pairing.repeated fun _ _ => pairing_joined h).map _

theorem pairing_queryBody : Pairing [] (queryBody sub) :=
  (pairing_selectItem h).commaList.bind fun _ => (pairing_source h).introduced.bind fun _ =>
    pairing_scope.bind fun _ => (h .disjunction).introduced.bind fun _ =>
      pairing_columnRef.listBy.bind fun _ => (h .disjunction).introduced.bind fun _ =>
        pairing_orderItem.listBy.bind fun _ => (pairing_integer rfl).introduced.map _

theorem pairing_query : Pairing [] (query sub) :=
  (Pairing.expectKeyword .SELECT).bind fun _ => pairing_queryBody h

/-! ### Expressions -/

theorem pairing_inTail (negated : Bool) : Pairing [] (inTail sub negated) :=
  .inParens (.accept (((pairing_queryBody h).behind (by rfl)).map _)
    ((h .disjunction).commaList.map _))

theorem pairing_betweenTail (negated : Bool) : Pairing [] (betweenTail sub negated) :=
  (h .operand).bind fun _ => (Pairing.expectKeyword .AND).bind fun _ => (h .operand).map _

theorem pairing_predicateTail {negated : Bool} {r : Reader (Expr → Expr)}
    (ht : predicateTail sub negated t = some r) : Pairing [t] r := by
  unfold predicateTail at ht
  split at ht <;> cases ht
  · exact (pairing_inTail h negated).behind rfl
  · exact (pairing_betweenTail h negated).behind rfl
  · exact ((h .operand).map _).behind rfl

omit h in
theorem pairing_nullTail : Pairing [] nullTail :=
  (Pairing.accepted (by rfl)).bind fun _ => (Pairing.expectKeyword .NULL).map _

theorem pairing_comparisonTail {r : Reader (Expr → Expr)} (ht : comparisonTail sub t = some r) :
    Pairing [t] r := by
  unfold comparisonTail at ht
  split at ht
  · cases ht
    exact pairing_nullTail.behind rfl
  · cases ht
    exact (Pairing.dispatch rfl fun _ _ => pairing_predicateTail h).behind rfl
  · split at ht
    next op hop =>
      cases ht
      exact ((h .operand).map _).behind (by cases t <;> first | rfl | cases hop)
    next => exact pairing_predicateTail h ht

theorem pairing_tail {level : Level} {r : Reader (Expr → Expr)} (ht : tail sub level t = some r) :
    Pairing [t] r := by
  have hand : ∀ {r}, andTail sub t = some r → Pairing [t] r := by
    intro r ht
    unfold andTail at ht
    split at ht <;> cases ht
    exact ((h .comparison).map _).behind rfl
  have hor : ∀ {r}, orTail sub t = some r → Pairing [t] r := by
    intro r ht
    unfold orTail at ht
    split at ht <;> cases ht
    exact ((h .conjunction).map _).behind rfl
  cases level with
  | operand => cases ht
  | comparison => exact pairing_comparisonTail h ht
  | conjunction =>
    rcases Option.or_eq_some_iff.mp ht with ht | ⟨-, ht⟩
    · exact hand ht
    · exact pairing_comparisonTail h ht
  | disjunction =>
    rcases Option.or_eq_some_iff.mp ht with ht | ⟨-, ht⟩
    · exact hor ht
    · rcases Option.or_eq_some_iff.mp ht with ht | ⟨-, ht⟩
      · exact hand ht
      · exact pairing_comparisonTail h ht

theorem pairing_rowTest (negated : Bool) : Pairing [] (rowTest sub negated) :=
  (pairing_query h).inParens.map _

theorem pairing_negation : Pairing [] (negation sub) :=
  .accept ((pairing_rowTest h true).behind (by rfl)) ((h .comparison).map _)

theorem pairing_parenthesis : Pairing [.leftParen] (parenthesis sub) :=
  .enclosed (.accept (((pairing_queryBody h).behind (by rfl)).map _) ((h .disjunction).map _))

theorem pairing_arguments : Pairing [.leftParen] (arguments sub) :=
  .accept (.pure (by rfl)) (.enclosed (.accept (.pure (by rfl)) (h .disjunction).commaList))

theorem pairing_named (name : String) : Pairing [] (named sub name) :=
  .accept ((pairing_arguments h).map _)
    (.accept (((pairing_identifier rfl).behind (by rfl)).map _) (.pure .nil))

theorem pairing_operand {r : Reader Expr} (ht : operand sub t = some r) : Pairing [t] r := by
  unfold operand at ht
  split at ht <;> cases ht
  case h_6 => exact (pairing_negation h).behind rfl
  case h_7 => exact (pairing_rowTest h false).behind rfl
  case h_8 => exact pairing_parenthesis h
  case h_9 => exact (pairing_named h _).behind rfl
  all_goals exact .pure rfl

theorem pairing_operandAndTails (level : Level) : Pairing [] (operandAndTails sub level) :=
  (Pairing.dispatch rfl fun _ _ => pairing_operand h).bind fun _ =>
    (Pairing.repeated fun _ _ => pairing_tail h).map _

end

theorem pairing_expression (n : Nat) : ∀ level, Pairing [] (expression n level) := by
  induction n with
  | zero => exact fun _ => .fail fun _ _ => trivial
  | succ n ih =>
    intro level
    have hpairing := pairing_operandAndTails ih level
    exact ⟨hpairing.takes, hpairing.stops⟩

/-! ### Whole texts -/

theorem pairing_wholeExpression (n : Nat) : Pairing [] (wholeExpression n) :=
  (pairing_expression n .disjunction).bind fun _ => Pairing.endOfInput.map _

theorem pairing_wholeStatement (n : Nat) : Pairing [] (wholeStatement n) :=
  (pairing_query (pairing_expression n)).bind fun _ => (Pairing.accepted (by rfl)).bind fun _ =>
    Pairing.endOfInput.map _

theorem pairing_slot (n : Nat) : Pairing [] (slot n) :=
  (pairing_queryBody (pairing_expression n)).introduced

theorem isClosing_missing (slots : List (Option Query)) : isClosing (missing slots) = false := by
  unfold missing
  split <;> rfl

theorem pairing_script (n : Nat) : Pairing [] (script n) := by
  have hmore : Pairing [] (repeated fun t => if t = .semicolon then some (slot n) else none) := by
    refine .repeated fun t r ht => ?_
    split at ht <;> cases ht
    next hsemicolon =>
      subst hsemicolon
      exact (pairing_slot n).behind rfl
  refine (pairing_slot n).bind fun first => hmore.bind fun more => .atEnd fun b => ?_
  cases b
  · exact (Pairing.missing (isClosing_missing (first :: more))).map _
  · exact .pure .nil

end Grammar
end QueryCanon
