/-
What canonical tokens keep.

`content` is what a token list says, apart from how it is negated, how it is grouped and
which of two words for the same thing it uses.  Canonical tokens have the content of the
source; they negate as often, and open no fewer parentheses.
-/
import QueryCanon.Proofs.Grammar.Spelling

namespace QueryCanon
namespace Grammar

/-- What one token says.  An inequality is the negation of an equality. -/
def essence : Token → List Token
  | .leftParen => []
  | .rightParen => []
  | .semicolon => []
  | .keyword .NOT => []
  | .keyword .INNER => []
  | .notEq => [.eq]
  | t => [t]

/-- What a token list says.  `CROSS JOIN` says the same as a comma. -/
def content : List Token → List Token
  | .keyword .CROSS :: .keyword .JOIN :: ts => .comma :: content ts
  | t :: ts => essence t ++ content ts
  | [] => []

/-- How often a token list negates something. -/
def negations (ts : List Token) : Nat := ts.count (.keyword .NOT) + ts.count .notEq

variable {choice : Choice} {n : Nat} {s : Symbol} {ts us vs w w' : List Token} {t : Token}

theorem negations_append (ts us : List Token) :
    negations (ts ++ us) = negations ts + negations us := by
  simp only [negations, List.count_append]
  omega

theorem content_cons_of (h : t = .keyword .CROSS → ts.head? ≠ some (.keyword .JOIN)) :
    content (t :: ts) = essence t ++ content ts := by
  rw [content.eq_def]
  split
  · next heq =>
    cases heq
    exact absurd rfl (h rfl)
  · next heq =>
    cases heq
    rfl
  · next heq => cases heq

theorem content_cons (h : t ≠ .keyword .CROSS) : content (t :: ts) = essence t ++ content ts :=
  content_cons_of fun ht => absurd ht h

/-- Whether the token has a text of the source. -/
def hasText : Token → Bool
  | .integer _ => true
  | .decimal _ => true
  | .string _ => true
  | .identifier _ => true
  | _ => false

theorem filter_essence (t : Token) : (essence t).filter hasText = [t].filter hasText := by
  unfold essence
  split <;> rfl

/-- The content keeps every number, string and name. -/
theorem filter_content (ts : List Token) : (content ts).filter hasText = ts.filter hasText := by
  induction ts using content.induct with
  | case1 ts ih =>
    rw [content]
    exact ih
  | case2 t ts hpair ih =>
    have hcontent : content (t :: ts) = essence t ++ content ts := by
      refine content_cons_of fun ht => ?_
      cases ts with
      | nil => nofun
      | cons u us =>
        intro hu
        cases hu
        exact hpair us ht rfl
    rw [hcontent, List.filter_append, filter_essence, ih, ← List.filter_append]
    rfl
  | case3 => rfl

/-- Whatever comes behind `ts`, the content of `ts` is `w`. -/
def Keeps (ts w : List Token) : Prop := ∀ us, content (ts ++ us) = w ++ content us

theorem Keeps.content_eq (h : Keeps ts w) : content ts = w := by
  have hnil := h []
  rwa [List.append_nil, content, List.append_nil] at hnil

theorem keeps_nil : Keeps [] [] := fun _ => rfl

theorem Keeps.append (h : Keeps ts w) (h' : Keeps us w') : Keeps (ts ++ us) (w ++ w') := by
  intro vs
  rw [List.append_assoc, h, h', List.append_assoc]

theorem keeps_token (h : t ≠ .keyword .CROSS) : Keeps [t] (essence t) := fun _ => content_cons h

theorem Keeps.cons (h : Keeps ts w) (ht : t ≠ .keyword .CROSS) :
    Keeps (t :: ts) (essence t ++ w) :=
  (keeps_token ht).append h

/-- `us` keeps what `ts` says. -/
structure Alike (ts us : List Token) : Prop where
  content : ∃ w, Keeps ts w ∧ Keeps us w
  negations : negations us = negations ts
  parens : ts.count .leftParen ≤ us.count .leftParen

theorem Alike.append {ts' us' : List Token} (h : Alike ts us) (h' : Alike ts' us') :
    Alike (ts ++ ts') (us ++ us') := by
  obtain ⟨⟨w, hts, hus⟩, hn, hp⟩ := h
  obtain ⟨⟨w', hts', hus'⟩, hn', hp'⟩ := h'
  refine ⟨⟨w ++ w', hts.append hts', hus.append hus'⟩, ?_, ?_⟩
  · simp only [negations_append, hn, hn']
  · simp only [List.count_append]
    omega

theorem alike_nil : Alike [] [] := ⟨⟨[], keeps_nil, keeps_nil⟩, rfl, Nat.le_refl _⟩

theorem alike_token (h : t ≠ .keyword .CROSS) : Alike [t] [t] :=
  ⟨⟨_, keeps_token h, keeps_token h⟩, rfl, Nat.le_refl _⟩

theorem Alike.cons (h : Alike ts us) (ht : t ≠ .keyword .CROSS) : Alike (t :: ts) (t :: us) :=
  (alike_token ht).append h

theorem Keeps.enclose (h : Keeps us w) : Keeps (enclose us) w := by
  have hclosed := h.append (keeps_token (t := .rightParen) (by simp))
  have hwhole := hclosed.cons (t := .leftParen) (by simp)
  simpa [essence, QueryCanon.enclose] using hwhole

/-- More parentheses in what is written. -/
theorem Alike.encloseRight (h : Alike ts us) : Alike ts (enclose us) := by
  obtain ⟨⟨w, hts, hus⟩, hn, hp⟩ := h
  refine ⟨⟨w, hts, hus.enclose⟩, ?_, ?_⟩
  · simpa [Grammar.negations, QueryCanon.enclose] using hn
  · simp [QueryCanon.enclose]
    omega

theorem Alike.encloseIf (h : Alike ts us) (needed : Bool) : Alike ts (encloseIf needed us) := by
  cases needed with
  | false => exact h
  | true => exact h.encloseRight

theorem Alike.enclose (h : Alike ts us) : Alike (enclose ts) (enclose us) :=
  (alike_token (by simp)).append (h.append (alike_token (by simp)))

theorem Alike.trans (h : Alike ts us) (h' : Alike us vs) : Alike ts vs := by
  obtain ⟨⟨w, hts, hus⟩, hn, hp⟩ := h
  obtain ⟨⟨w', hus', hvs⟩, hn', hp'⟩ := h'
  have hw : w' = w := hus'.content_eq.symm.trans hus.content_eq
  subst hw
  exact ⟨⟨w', hts, hvs⟩, hn'.trans hn, Nat.le_trans hp hp'⟩

/-! ### Negation -/

/-- What two token lists come to behind `L` they come to at its end, unless `L` ends in
half of a pair. -/
theorem content_append_congr (L : List Token) (h : content ts = content us)
    (hts : ts.head? ≠ some (.keyword .JOIN)) (hus : us.head? ≠ some (.keyword .JOIN)) :
    content (L ++ ts) = content (L ++ us) := by
  induction L using content.induct with
  | case1 L ih => simpa [content] using ih
  | case2 t L hpair ih =>
    -- A `CROSS` at the end of `L` would pair with a `JOIN` at the head of what follows.
    have hhead : ∀ {vs : List Token}, vs.head? ≠ some (.keyword .JOIN) → t = .keyword .CROSS →
        (L ++ vs).head? ≠ some (.keyword .JOIN) := by
      intro vs hvs ht
      cases L with
      | nil => exact hvs
      | cons u L =>
        intro hu
        cases hu
        exact hpair L ht rfl
    rw [List.cons_append, List.cons_append, content_cons_of (hhead hts),
      content_cons_of (hhead hus), ih]
  | case3 => exact h

/-- A `NOT` before a phrase goes to a token inside it. -/
theorem alike_moved {L R : List Token} (h : Keeps (L ++ t :: R) w)
    (ht : t ≠ .keyword .JOIN) (hus : ∀ vs, (us ++ vs).head? ≠ some (.keyword .JOIN))
    (hcontent : ∀ vs, content (us ++ vs) = content (t :: vs))
    (hnegations : negations us = negations [t] + 1)
    (hparens : us.count .leftParen = [t].count .leftParen) :
    Alike (.keyword .NOT :: (L ++ t :: R)) (L ++ (us ++ R)) := by
  refine ⟨⟨w, h.cons (t := .keyword .NOT) (by simp), fun vs => ?_⟩, ?_, ?_⟩
  · rw [← h vs, List.append_assoc, List.append_assoc, List.append_assoc]
    exact content_append_congr L (hcontent _) (hus _) (by simpa using ht)
  · have hnot : negations [.keyword .NOT] = 1 := rfl
    show negations (L ++ (us ++ R)) = negations ([.keyword .NOT] ++ (L ++ ([t] ++ R)))
    simp only [negations_append]
    omega
  · show List.count .leftParen ([.keyword .NOT] ++ (L ++ ([t] ++ R))) ≤
      List.count Token.leftParen (L ++ (us ++ R))
    have hnot : [Token.keyword .NOT].count .leftParen = 0 := rfl
    simp only [List.count_append]
    omega

/-- The negation of a tree is written as `NOT` before it would say. -/
theorem alike_negate (e : Expr) (h : Keeps e.tokens w) :
    Alike (.keyword .NOT :: e.tokens) e.negate.tokens := by
  have hword : ∀ (k : Keyword) (vs : List Token),
      content ([.keyword .NOT, .keyword k] ++ vs) = content (.keyword k :: vs) :=
    fun k vs => content_cons (by simp)
  unfold Expr.negate
  split
  · simp only [Expr.tokens, Comparison.token] at h ⊢
    show Alike _ (_ ++ ([.notEq] ++ _))
    exact alike_moved h (by simp) (by simp) (fun _ => rfl) rfl rfl
  · simp only [Expr.tokens, notTokens, List.append_assoc] at h ⊢
    exact alike_moved h (by simp) (by simp) (hword .BETWEEN) rfl rfl
  · simp only [Expr.tokens, notTokens, List.append_assoc] at h ⊢
    exact alike_moved h (by simp) (by simp) (hword .IN) rfl rfl
  · simp only [Expr.tokens, notTokens, List.append_assoc] at h ⊢
    exact alike_moved h (by simp) (by simp) (hword .IN) rfl rfl
  · simp only [Expr.tokens, notTokens, List.append_assoc] at h ⊢
    exact alike_moved h (by simp) (by simp) (hword .LIKE) rfl rfl
  · rw [Expr.tokens]
    exact (Alike.encloseIf ⟨⟨w, h, h⟩, rfl, Nat.le_refl _⟩ _).cons (by simp)

/-! ### Phrases -/

/-- What is written as it was read. -/
theorem piecewise_alike : Piecewise fun ts => Alike ts ts where
  nil := alike_nil
  append h h' := h.append h'
  enclose h := h.enclose
  token _ h := alike_token h
  point _ := (alike_token (by simp)).cons (by simp)

/-- A literal made of any of the tokens is written as that token. -/
def Faithful (ts : List Token) : Prop := ∀ t ∈ ts, ∀ l, Denotes t l → l.token = t

namespace Faithful

theorem left (h : Faithful (ts ++ us)) : Faithful ts :=
  fun t ht => h t (List.mem_append_left us ht)

theorem right (h : Faithful (ts ++ us)) : Faithful us :=
  fun t ht => h t (List.mem_append_right ts ht)

theorem behind (h : Faithful (t :: ts)) : Faithful ts :=
  fun u hu => h u (List.mem_cons_of_mem t hu)

theorem inside (h : Faithful (enclose ts)) : Faithful ts := h.left.behind

end Faithful

theorem Introduces.alike {kind : JoinKind} (h : Introduces kind ts) : Alike ts kind.tokens := by
  cases h with
  | spelled =>
    cases kind with
    | cross => exact ⟨⟨[.comma], fun _ => rfl, fun _ => rfl⟩, rfl, Nat.le_refl _⟩
    | _ => exact piecewise_alike.joinKind (by decide)
  | plain => exact ⟨⟨[.keyword .JOIN], fun _ => rfl, fun _ => rfl⟩, rfl, Nat.le_refl _⟩
  | comma => exact ⟨⟨[.comma], fun _ => rfl, fun _ => rfl⟩, rfl, Nat.le_refl _⟩

theorem Derives.list_ne_nil {vs : List s.Value} (h : Derives choice n (.list s) ts vs) :
    vs ≠ [] := by
  cases h with
  | one => exact List.cons_ne_nil _ _
  | more => exact List.cons_ne_nil _ _

theorem Alike.words {k : Keyword} (h : Alike ts us) (hk : k ≠ .CROSS) :
    Alike (.keyword k :: ts) (.keyword k :: us) :=
  h.cons (by simpa using hk)

/-- What a `NOT` inside a predicate is followed by. -/
theorem Alike.negated {k : Keyword} (h : Alike ts us) (hk : k ≠ .CROSS) (negated : Bool) :
    Alike (notTokens negated ++ .keyword k :: ts) (notTokens negated ++ .keyword k :: us) := by
  cases negated with
  | false => exact h.words hk
  | true => exact (h.words hk).words (by decide)

theorem Alike.query {vs ws : List Token} {items : List SelectItem} {source : Option Source}
    {filter groupFilter : Option Expr} (hne : items ≠ [])
    (hitems : Alike ts ((Symbol.list .item).tokens items))
    (hsource : Alike us ((Symbol.clause .FROM .source).tokens source))
    (hfilter : Alike vs ((Symbol.clause .WHERE .condition).tokens filter))
    (hgroupFilter : Alike ws ((Symbol.clause .HAVING .condition).tokens groupFilter))
    (scope : Option String) (groups : List ColumnRef) (order : List OrderItem)
    (limit : Option String) :
    Alike (.keyword .SELECT :: (ts ++ (us ++ (scopeTokens scope ++ (vs ++
        (byTokens .GROUP (groups.map ColumnRef.tokens) ++ (ws ++
          (byTokens .ORDER (order.map OrderItem.tokens) ++ limitTokens limit))))))))
      (Query.tokens ⟨items, source, scope, filter, groups, groupFilter, order, limit⟩) := by
  have hend := (piecewise_alike.order order).append (piecewise_alike.limit limit)
  have hgroups := (piecewise_alike.groups groups).append (hgroupFilter.append hend)
  have hscope := (piecewise_alike.scope scope).append (hfilter.append hgroups)
  rw [Query.tokens_eq, itemTokens_eq hne]
  exact (hitems.append (hsource.append hscope)).words (by decide)

theorem Alike.join {words : List Token} {left : Source} {kind : JoinKind} {t : TableRef}
    {condition : Option JoinCondition} (hleft : Alike ts left.tokens)
    (hwords : Introduces kind words)
    (hlink : Alike us (condition.elim [] JoinCondition.tokens)) :
    Alike (ts ++ (words ++ (t.tokens ++ us)))
      (Source.join left (.table t) kind condition).tokens := by
  rw [Source.tokens_join]
  exact hleft.append (hwords.alike.append ((piecewise_alike.table t).append hlink))

/-- Whether phrases of the kind may begin with `CROSS`, which is half of a pair. -/
def Symbol.crosses : Symbol → Bool
  | list s => s.crosses
  | clause k s => k == .CROSS || s.crosses
  | _ => false

/-- The canonical tokens of a phrase keep what its own tokens say. -/
theorem Derives.alike {v : s.Value} (h : Derives choice n s ts v) (hs : s.crosses = false)
    (hts : Faithful ts) : Alike ts (s.tokens v) := by
  induction h with
  | query h₁ _ _ _ ih₁ ih₂ ih₃ ih₄ =>
    have hus := hts.behind.right
    have hvs := hus.right.right
    exact Alike.query h₁.list_ne_nil (ih₁ rfl hts.behind.left) (ih₂ rfl hus.left) (ih₃ rfl hvs.left)
      (ih₄ rfl hvs.right.right.left) _ _ _ _
  | star => exact (alike_token (by simp)).append (piecewise_alike.optionalName _)
  | item _ ih => exact (ih rfl hts.left).append (piecewise_alike.optionalName _)
  | table => exact piecewise_alike.table _
  | join _ hwords _ ih₁ ih₂ => exact (ih₁ rfl hts.left).join hwords (ih₂ rfl hts.right.right.right)
  | unconditional => exact alike_nil
  | test _ _ ih => exact (ih rfl hts.behind).words (by decide)
  | columns _ => exact (piecewise_alike.enclose (piecewise_alike.names _)).words (by decide)
  | condition _ ih => exact (ih rfl hts).encloseIf _
  | expression _ ih => exact ih rfl hts
  | conjunction _ ih => exact ih rfl hts
  | or _ _ ih₁ ih₂ =>
    show Alike _ (Expr.tokens (.or _ _))
    rw [Expr.tokens]
    exact (ih₁ rfl hts.left).append ((ih₂ rfl hts.right.behind).words (by decide))
  | comparison _ ih => exact ih rfl hts
  | and _ _ ih₁ ih₂ =>
    show Alike _ (Expr.tokens (.and _ _))
    rw [Expr.tokens]
    exact ((ih₁ rfl hts.left).encloseIf _).append
      (((ih₂ rfl hts.right.behind).encloseIf _).words (by decide))
  | operand _ ih => exact ih rfl hts
  | tail _ _ _ ih₁ ih₂ =>
    show Alike _ (Tail.apply _ _).tokens
    rw [Tail.tokens_apply]
    exact ((ih₁ rfl hts.left).encloseIf _).append (ih₂ rfl hts.right)
  | compare _ ih =>
    rename_i op _ _ _
    exact ((ih rfl hts.behind).encloseIf _).cons (by cases op <;> simp [Comparison.token])
  | between _ _ ih₁ ih₂ =>
    have hbounds := hts.right.behind
    refine Alike.negated (Alike.append ((ih₁ rfl hbounds.left).encloseIf _) ?_) (by decide) _
    exact ((ih₂ rfl hbounds.right.behind).encloseIf _).words (by decide)
  | inList _ ih =>
    show Alike _ (Tail.tokens _)
    rw [Tail.tokens, Expr.eachTokens_eq_map]
    exact (ih rfl hts.right.behind.inside).enclose.negated (by decide) _
  | inQuery _ ih => exact (ih rfl hts.right.behind.inside).enclose.negated (by decide) _
  | like _ ih => exact ((ih rfl hts.right.behind).encloseIf _).negated (by decide) _
  | isNull negated =>
    have hnull := alike_nil.negated (k := .NULL) (by decide) negated
    exact hnull.words (by decide)
  | literal hd =>
    -- The literal tells integers from decimals by their text alone.
    show Alike _ [_]
    rw [hts _ (List.mem_singleton_self _) _ hd]
    exact alike_token (by rintro rfl; cases hd)
  | column => exact piecewise_alike.column _
  | call _ ih => exact (ih rfl hts.behind.inside).enclose.cons (by simp)
  | subquery _ ih => exact (ih rfl hts.inside).enclose
  | paren _ ih => exact (ih rfl hts.inside).enclose
  | hasRows _ ih => exact (ih rfl hts.behind.inside).enclose.words (by decide)
  | hasNoRows _ ih =>
    exact ((ih rfl hts.behind.behind.inside).enclose.words (by decide)).words (by decide)
  | not _ _ ih =>
    have hcomparison := ih rfl hts.behind
    obtain ⟨w, -, hw⟩ := hcomparison.content
    exact (hcomparison.words (by decide)).trans (alike_negate _ hw)
  | noArguments => exact alike_nil
  | starArgument => exact alike_token (by simp)
  | arguments _ ih =>
    show Alike _ (commaSeparated _)
    rw [Expr.eachTokens_eq_map]
    exact ih rfl hts
  | one _ ih =>
    show Alike _ (commaSeparated [_])
    rw [commaSeparated_singleton]
    exact ih hs hts
  | more _ h₂ ih₁ ih₂ =>
    show Alike _ (commaSeparated (_ :: List.map _ _))
    rw [commaSeparated_cons (by simpa using h₂.list_ne_nil)]
    exact (ih₁ hs hts.left).append ((ih₂ hs hts.right.behind).cons (by simp))
  | absent => exact alike_nil
  | present _ ih =>
    obtain ⟨hk, hs⟩ := Bool.or_eq_false_iff.mp hs
    exact (ih hs hts.behind).words (by simpa using hk)

end Grammar
end QueryCanon
