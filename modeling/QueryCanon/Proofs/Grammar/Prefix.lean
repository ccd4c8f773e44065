/-
What has been read can always be completed.

Every reader of the grammar is viable for the phrases of its kind.  Their completions nest
no more than one level deeper than what the reader takes: what is missing is a name, a
predicate about one, a word or a parenthesis.

The phrases are those of the choice `joined`, where a tail may follow the operand of a
`NOT`.
-/
import QueryCanon.Proofs.Grammar.Ambiguity
import QueryCanon.Proofs.Grammar.Soundness
import QueryCanon.Proofs.Grammar.Viable

namespace QueryCanon
namespace Grammar

open Reader

variable {N : Nat} {sub : Level → Reader Expr} {ts us rest : List Token} {t : Token}

/-! ### Parts without expressions -/

theorem isLexical_name : (Token.identifier "a").IsLexical := by
  show Lexeme.IsName "a".toList
  decide +kernel

theorem isLexical_number : (Token.integer "0").IsLexical := by
  have hchars : "0".toList = ['0'] := rfl
  show Lexeme.Digits "0".toList
  rw [hchars]
  exact ⟨List.cons_ne_nil _ _, List.forall_mem_singleton.mpr rfl⟩

theorem viable_identifier (wanted : Wanted) :
    Viable [] (SpellingOf fun name => [.identifier name]) (identifier wanted) :=
  .require ⟨.identifier "a", rfl, isLexical_name⟩ fun t ht => by
    obtain ⟨name, hname⟩ := Option.isSome_iff_exists.mp ht
    exact ⟨name, by simpa using hname⟩

theorem viable_label : Viable [] (SpellingOf optionalName) label :=
  .takeIf ⟨none, rfl⟩ fun t ht => by
    obtain ⟨name, hname⟩ := Option.isSome_iff_exists.mp ht
    exact ⟨some name, by simpa [optionalName] using hname⟩

theorem viable_qualified (wanted : Wanted) :
    Viable [] (fun ts => ∃ qualifier name, ts = qualifiedTokens qualifier name)
      (qualified wanted) := by
  refine (viable_identifier wanted).bind
    (T := fun ts => ts = [] ∨ ∃ name, ts = [.dot, .identifier name])
    (fun first => .accept ?_ (.pure (.inl rfl))) (.of (.inl rfl)) ?_
  · exact ((viable_identifier wanted).behind fun ts ⟨name, hname⟩ =>
      .inr ⟨name, by simp [hname]⟩).map _
  · rintro us vs ⟨first, rfl⟩ (rfl | ⟨name, rfl⟩)
    · exact ⟨none, first, rfl⟩
    · exact ⟨some first, name, rfl⟩

theorem viable_columnRef : Viable [] (SpellingOf ColumnRef.tokens) columnRef :=
  ((viable_qualified .columnName).mono fun _ ⟨qualifier, name, h⟩ =>
    ⟨⟨qualifier, name⟩, h⟩).map _

theorem viable_tableRef : Viable [] (SpellingOf TableRef.tokens) tableRef := by
  refine (viable_qualified .tableName).bind (fun _ => viable_label.map _) (.of ⟨none, rfl⟩) ?_
  rintro us vs ⟨qualifier, name, rfl⟩ ⟨o, rfl⟩
  exact ⟨⟨qualifier, name, o⟩, rfl⟩

theorem viable_orderTarget : Viable [] (SpellingOf OrderTarget.tokens) orderTarget := by
  refine .takeIf_bind (fun t text ht => .pure ⟨.ordinal text, ?_⟩) ?_
  · simpa [OrderTarget.tokens] using ht
  · refine (viable_columnRef.mono ?_).map _
    rintro ts ⟨c, hc⟩
    exact ⟨.column c, hc⟩

theorem viable_direction : Viable [] (SpellingOf directionTokens) (takeIf direction?) := by
  refine .takeIf ⟨none, rfl⟩ fun t ht => ?_
  obtain ⟨d, hd⟩ := Option.isSome_iff_exists.mp ht
  exact ⟨some d, by rw [direction?_eq_some.mp hd]; rfl⟩

theorem viable_nulls :
    Viable [] (SpellingOf nullsTokens) (introduced .NULLS (require nullsPlace? .nullsPlace)) := by
  refine .introduced (.require ⟨.keyword .FIRST, rfl, trivial⟩ fun t ht => ?_) ⟨none, rfl⟩
  obtain ⟨place, hplace⟩ := Option.isSome_iff_exists.mp ht
  exact ⟨some place, nullsPlace?_eq_some.mp hplace⟩

theorem viable_orderItem : Viable [] (SpellingOf OrderItem.tokens) orderItem := by
  refine viable_orderTarget.bind (T := (SpellingOf directionTokens).then (SpellingOf nullsTokens))
    (fun _ => viable_direction.bind_then ⟨none, rfl⟩ fun _ => viable_nulls.map _)
    (.of (Phrases.then_nil ⟨none, rfl⟩ ⟨none, rfl⟩)) ?_
  · rintro us vs ⟨target, rfl⟩ ⟨_, _, rfl, ⟨direction, rfl⟩, ⟨nulls, rfl⟩⟩
    exact ⟨⟨target, direction, nulls⟩, (orderItem_tokens ⟨target, direction, nulls⟩).symm⟩

theorem viable_scope : Viable [] (SpellingOf scopeTokens) scope := by
  refine .accept ?_ (.pure ⟨none, rfl⟩)
  exact ((viable_identifier _).behind fun ts ⟨name, hname⟩ =>
    ⟨some name, by simp [hname, scopeTokens]⟩).map _

theorem viable_limit (wanted : Wanted) :
    Viable [] (SpellingOf limitTokens) (introduced .LIMIT (integer wanted)) := by
  refine .introduced (.require ⟨.integer "0", rfl, isLexical_number⟩ fun t ht => ?_) ⟨none, rfl⟩
  obtain ⟨text, htext⟩ := Option.isSome_iff_exists.mp ht
  exact ⟨some text, by simpa [limitTokens] using htext⟩

/-! ### Kinds of phrases -/

/-- The phrases of a kind that nest at most `N` deep. -/
def Derivable (N : Nat) (s : Symbol) : Phrases := fun ts => ∃ v, Derives .joined N s ts v

/-- The expressions of a level that nest at most `N` deep. -/
def AtLevel (N : Nat) : Level → Phrases
  | .operand, ts => ∃ ending, Derivable N (.operand ending) ts
  | .comparison, ts => ∃ ending, Derivable N (.comparison ending) ts
  | .conjunction, ts => Derivable N .conjunction ts
  | .disjunction, ts => Derivable N .disjunction ts

/-- The readers of nested expressions are viable. -/
def SubViable (N : Nat) (sub : Level → Reader Expr) : Prop :=
  ∀ level, Viable [] (AtLevel N level) (sub level)

theorem SubViable.expression (h : SubViable N sub) :
    Viable [] (Derivable N .expression) (sub .disjunction) :=
  (h .disjunction).mono fun _ ⟨e, hd⟩ => ⟨e, hd.expression⟩

theorem SubViable.condition (h : SubViable N sub) :
    Viable [] (Derivable N .condition) (sub .disjunction) :=
  (h .disjunction).mono fun _ ⟨e, hd⟩ => ⟨e, hd.expression.condition⟩

theorem viable_clause {s : Symbol} {r : Reader s.Value} (k : Keyword)
    (h : Viable [] (Derivable N s) r) : Viable [] (Derivable N (.clause k s)) (introduced k r) :=
  .introduced (h.behind fun _ ⟨v, hd⟩ => ⟨some v, hd.present⟩) ⟨none, .absent⟩

theorem viable_list {s : Symbol} {r : Reader s.Value} (h : Viable [] (Derivable N s) r) :
    Viable [] (Derivable N (.list s)) (commaList r) :=
  h.commaList (fun _ ⟨v, hd⟩ => ⟨[v], hd.one⟩) fun _ _ ⟨v, hd⟩ ⟨vs, hds⟩ => ⟨v :: vs, hd.more hds⟩

/-- A name is an expression of every level. -/
theorem atLevel_name (hN : 0 < N) (level : Level) : AtLevel N level [.identifier "a"] := by
  obtain ⟨k, rfl⟩ : ∃ k, N = k + 1 := ⟨N - 1, by omega⟩
  have hcolumn : Derives .joined (k + 1) (.operand .closed) [.identifier "a"]
      (.column ⟨none, "a"⟩) := .column (c := ⟨none, "a"⟩)
  cases level with
  | operand => exact ⟨.closed, _, hcolumn⟩
  | comparison => exact ⟨.closed, _, hcolumn.operand⟩
  | conjunction => exact ⟨_, hcolumn.operand.comparison⟩
  | disjunction => exact ⟨_, hcolumn.operand.comparison.conjunction⟩

theorem atLevel_begun (hN : 0 < N) (level : Level) : (AtLevel N level).BegunBy [] :=
  .nil (atLevel_name hN level) (List.forall_mem_singleton.mpr isLexical_name)

/-! ### Sources -/

theorem viable_selectItem (h : SubViable N sub) :
    Viable [] (Derivable N .item) (selectItem sub) := by
  refine .accept ?_ ?_
  · exact (viable_label.behind fun ts ⟨o, ho⟩ => ⟨⟨.star, o⟩, by rw [ho]; exact .star⟩).map _
  · refine h.expression.bind (fun _ => viable_label.map _) (.of ⟨none, rfl⟩) ?_
    rintro us vs ⟨e, hd⟩ ⟨o, rfl⟩
    exact ⟨⟨e, o⟩, hd.item⟩

/-- The tokens that begin a join without a condition. -/
def Crosses (t : Token) : Prop := t = .comma ∨ t = .keyword .CROSS

/-- The words of a join, of a kind that needs a condition or of the one that has none. -/
def JoinWords (crossing : Prop) : Phrases :=
  fun ts => ∃ kind, Introduces kind ts ∧ (kind = .cross ↔ crossing)

theorem Introduces.crosses {kind : JoinKind} {words : List Token} (h : Introduces kind words)
    (ht : t :: ts = words ++ rest) : kind = .cross ↔ Crosses t := by
  cases h with
  | comma =>
    cases ht
    simp [Crosses]
  | plain =>
    cases ht
    simp [Crosses]
  | spelled => cases kind <;> cases ht <;> simp [Crosses]

theorem JoinWords.spelled {kind : JoinKind} (h : kind.tokens = t :: ts) :
    JoinWords (Crosses t) (t :: ts) := by
  have hwords : t :: ts = kind.tokens ++ [] := by simp [h]
  exact ⟨kind, h ▸ .spelled kind, (Introduces.spelled kind).crosses hwords⟩

theorem viable_outerJoin {k : Keyword} {long short : JoinKind}
    (hlong : long.tokens = [.keyword k, .keyword .OUTER, .keyword .JOIN])
    (hshort : short.tokens = [.keyword k, .keyword .JOIN]) :
    Viable [.keyword k] (JoinWords (Crosses (.keyword k))) (outerJoin long short) := by
  refine (Viable.accepted (S := fun ts => ts = [.keyword k] ∨ ts = [.keyword k, .keyword .OUTER])
    (.inl rfl) (.inr rfl)).bind (fun _ => (Viable.word .JOIN).map _) (word_begun _) ?_
  rintro us vs (rfl | rfl) rfl
  · exact .spelled hshort
  · exact .spelled hlong

theorem viable_joinKind {r : Reader JoinKind} (hk : joinKind t = some r) :
    Viable [t] (JoinWords (Crosses t)) r := by
  unfold joinKind at hk
  split at hk
  case h_8 => cases hk
  all_goals cases hk
  · exact .pure ⟨.cross, .comma, by simp [Crosses]⟩
  · exact .pure ⟨.inner, .plain, by simp [Crosses]⟩
  · have hwords : JoinKind.inner.tokens = [.keyword .INNER, .keyword .JOIN] := rfl
    exact (Viable.expectKeyword (.spelled hwords)).map _
  · exact viable_outerJoin rfl rfl
  · exact viable_outerJoin rfl rfl
  · exact viable_outerJoin rfl rfl
  · have hwords : JoinKind.cross.tokens = [.keyword .CROSS, .keyword .JOIN] := rfl
    exact (Viable.expectKeyword (.spelled hwords)).map _

/-- What may stand behind the table of a join, whatever its kind is. -/
def LinkOf (N : Nat) (crossing : Prop) : Phrases :=
  fun ts => ∀ kind, (kind = .cross ↔ crossing) → Derivable N (.link kind) ts

theorem linkOf_columns (names : List String) (h : names ≠ []) {crossing : Prop}
    (hcrossing : ¬ crossing) :
    LinkOf N crossing
      (.keyword .USING :: enclose (commaSeparated (names.map fun x => [.identifier x]))) := by
  intro kind hkind
  obtain ⟨name, names, rfl⟩ := List.exists_cons_of_ne_nil h
  exact ⟨_, .columns (mt hkind.mp hcrossing)⟩

theorem linkOf_columns_begun (N : Nat) {crossing : Prop} (hcrossing : ¬ crossing) :
    (LinkOf N crossing).BegunBy [] := by
  refine .nil (linkOf_columns ["a"] (by simp) hcrossing) ?_
  simp only [List.map_cons, List.map_nil, commaSeparated_singleton, enclose, List.cons_append,
    List.nil_append, List.forall_mem_cons]
  exact ⟨trivial, trivial, isLexical_name, trivial, List.forall_mem_nil _⟩

theorem viable_joinCondition (h : SubViable N sub) {crossing : Prop} (hcrossing : ¬ crossing) :
    Viable [] (LinkOf N crossing) (joinCondition sub) := by
  refine .accept ?_ (.accept ?_ (.fail ?_))
  · exact (h.expression.behind fun ts ⟨e, hd⟩ kind hkind =>
      ⟨_, hd.test (mt hkind.mp hcrossing)⟩).map _
  · have hnames := (viable_identifier .columnName).listed
    refine ((hnames.inParens (T := fun ts => ∃ names ≠ [], ts =
      enclose (commaSeparated (names.map fun x => [.identifier x]))) ?_ ?_).behind ?_).map _
    · rintro ts ⟨names, hne, rfl⟩
      exact ⟨names, hne, rfl⟩
    · exact .nil ⟨["a"], by simp, rfl⟩ (by simpa using isLexical_name)
    · rintro ts ⟨names, hne, rfl⟩
      exact linkOf_columns names hne hcrossing
  · exact linkOf_columns_begun N hcrossing

theorem viable_conditionOf (h : SubViable N sub) {kind : JoinKind} {crossing : Prop}
    (hkind : kind = .cross ↔ crossing) :
    Viable [] (LinkOf N crossing) (conditionOf sub kind) := by
  by_cases hcross : kind = .cross
  · subst hcross
    refine .pure fun kind hkind' => ?_
    obtain rfl : kind = .cross := hkind'.mpr (hkind.mp rfl)
    exact ⟨none, .unconditional⟩
  · rw [conditionOf_of_ne hcross, map_eq_pure_bind]
    exact (viable_joinCondition h (mt hkind.mpr hcross)).map _

/-- What may be put behind any phrase of a kind to make another. -/
def Extending (N : Nat) (s : Symbol) : Phrases :=
  fun ts => ∀ before, Derivable N s before → Derivable N s (before ++ ts)

theorem Extending.append {s : Symbol} (h : Extending N s ts) (h' : Extending N s us) :
    Extending N s (ts ++ us) := by
  intro before hd
  rw [← List.append_assoc]
  exact h' _ (h before hd)

theorem linkOf_begun (N : Nat) (crossing : Prop) : (LinkOf N crossing).BegunBy [] := by
  by_cases h : crossing
  · exact .of fun kind hkind => hkind.mpr h ▸ ⟨none, .unconditional⟩
  · exact linkOf_columns_begun N h

theorem viable_joined (h : SubViable N sub) {r : Reader (Source → Source)}
    (hj : joined sub t = some r) : Viable [t] (Extending N .source) r := by
  obtain ⟨kindReader, hk, rfl⟩ := Option.map_eq_some_iff.mp hj
  refine (viable_joinKind hk).bind_of
    (T := fun ts => ∃ t' us, ts = TableRef.tokens t' ++ us ∧ LinkOf N (Crosses t) us) ?_ ?_ ?_
  · rintro kind ⟨ts, rest, hread⟩
    obtain ⟨words, hwords, hi⟩ := joinKind_done hk hread
    have hlink := viable_conditionOf h (hi.crosses hwords)
    refine viable_tableRef.bind (fun _ => hlink.map _) (linkOf_begun _ _) ?_
    rintro us vs ⟨t', rfl⟩ hvs
    exact ⟨t', vs, rfl, hvs⟩
  · obtain ⟨us, hus, hlexical⟩ := linkOf_begun N (Crosses t)
    have hall : ∀ t ∈ Token.identifier "a" :: us, t.IsLexical :=
      List.forall_mem_cons.mpr ⟨isLexical_name, hlexical⟩
    exact .nil ⟨⟨none, "a", none⟩, us, rfl, hus⟩ hall
  · rintro us vs ⟨kind, hi, hkind⟩ ⟨t', ws, rfl, hlink⟩ before ⟨left, hd⟩
    obtain ⟨o, hd'⟩ := hlink kind hkind
    exact ⟨_, hd.join hi hd'⟩

theorem viable_source (h : SubViable N sub) : Viable [] (Derivable N .source) (source sub) := by
  have hnil : Extending N .source [] := fun before hd => by rwa [List.append_nil]
  refine viable_tableRef.bind (T := Extending N .source) (fun _ => ?_) (.of hnil) ?_
  · exact (Viable.repeated hnil (fun t r hj => viable_joined h hj)
      fun _ _ => Extending.append).map _
  · rintro us vs ⟨t, rfl⟩ hvs
    exact hvs _ ⟨_, .table⟩

/-! ### Queries -/

/-- The parts of a query behind its `SELECT`. -/
def QueryParts (N : Nat) : Phrases :=
  (Derivable N (.list .item)).then <| (Derivable N (.clause .FROM .source)).then <|
    (SpellingOf scopeTokens).then <| (Derivable N (.clause .WHERE .condition)).then <|
    (SpellingOf fun cs : List ColumnRef => byTokens .GROUP (cs.map ColumnRef.tokens)).then <|
    (Derivable N (.clause .HAVING .condition)).then <|
    (SpellingOf fun entries : List OrderItem => byTokens .ORDER (entries.map OrderItem.tokens)).then
    (SpellingOf limitTokens)

theorem QueryParts.derivable (h : QueryParts N ts) :
    Derivable N .query (.keyword .SELECT :: ts) := by
  obtain ⟨us₁, _, rfl, ⟨items, d₁⟩, us₂, _, rfl, ⟨source, d₂⟩, us₃, _, rfl, ⟨scope, rfl⟩, us₄, _,
    rfl, ⟨filter, d₃⟩, us₅, _, rfl, ⟨groups, rfl⟩, us₆, _, rfl, ⟨groupFilter, d₄⟩, us₇, _, rfl,
    ⟨order, rfl⟩, limit, rfl⟩ := h
  exact ⟨_, d₁.query d₂ d₃ d₄⟩

theorem viable_queryBody (h : SubViable N sub) : Viable [] (QueryParts N) (queryBody sub) := by
  have hclause : ∀ k s, Derivable N (.clause k s) [] := fun _ _ => ⟨none, .absent⟩
  have hcolumn : ∀ t ∈ ColumnRef.tokens ⟨none, "a"⟩, t.IsLexical :=
    List.forall_mem_singleton.mpr isLexical_name
  have hordinal : ∀ t ∈ OrderItem.tokens ⟨.ordinal "0", none, none⟩, t.IsLexical :=
    List.forall_mem_singleton.mpr isLexical_number
  have hlimit : SpellingOf limitTokens [] := ⟨none, rfl⟩
  have horder := Phrases.then_nil
    (S := SpellingOf fun entries : List OrderItem => byTokens .ORDER (entries.map OrderItem.tokens))
    ⟨[], rfl⟩ hlimit
  have hgroupFilter := Phrases.then_nil (hclause .HAVING .condition) horder
  have hgroups := Phrases.then_nil
    (S := SpellingOf fun cs : List ColumnRef => byTokens .GROUP (cs.map ColumnRef.tokens))
    ⟨[], rfl⟩ hgroupFilter
  have hfilter := Phrases.then_nil (hclause .WHERE .condition) hgroups
  have hscope := Phrases.then_nil (S := SpellingOf scopeTokens) ⟨none, rfl⟩ hfilter
  have hsource := Phrases.then_nil (hclause .FROM .source) hscope
  exact (viable_list (viable_selectItem h)).bind_then hsource fun _ =>
    (viable_clause .FROM (viable_source h)).bind_then hscope fun _ =>
    viable_scope.bind_then hfilter fun _ =>
    (viable_clause .WHERE h.condition).bind_then hgroups fun _ =>
    (Viable.listBy ⟨none, "a"⟩ hcolumn viable_columnRef).bind_then hgroupFilter fun _ =>
    (viable_clause .HAVING h.condition).bind_then horder fun _ =>
    (Viable.listBy ⟨.ordinal "0", none, none⟩ hordinal viable_orderItem).bind_then hlimit fun _ =>
    (viable_limit .rowCount).map _

theorem QueryParts.star : QueryParts N [.star] :=
  ⟨[.star], [], rfl, ⟨[⟨.star, none⟩], Derives.bareStar.one⟩, [], [], rfl,
    ⟨none, .absent⟩, [], [], rfl, ⟨none, rfl⟩, [], [], rfl, ⟨none, .absent⟩, [], [], rfl, ⟨[], rfl⟩,
    [], [], rfl, ⟨none, .absent⟩, [], [], rfl, ⟨[], rfl⟩, none, rfl⟩

theorem query_begun (N : Nat) : (Derivable N .query).BegunBy [] :=
  .nil QueryParts.star.derivable
    (List.forall_mem_cons.mpr ⟨trivial, List.forall_mem_singleton.mpr trivial⟩)

theorem viable_query (h : SubViable N sub) : Viable [] (Derivable N .query) (query sub) := by
  refine (Viable.word .SELECT).bind (fun _ => viable_queryBody h)
    (.nil QueryParts.star (List.forall_mem_singleton.mpr trivial)) ?_
  rintro us vs rfl hvs
  exact hvs.derivable

/-! ### Tails -/

/-- The tails whose expressions nest at most `N` deep. -/
def TailOf (N : Nat) : Phrases := fun ts => ∃ ending, Derivable (N + 1) (.tail ending) ts

variable {r : Reader (Expr → Expr)} {negated : Bool}

theorem viable_inTail (h : SubViable N sub) :
    Viable [.keyword .IN] (fun ts => TailOf N (notTokens negated ++ ts)) (inTail sub negated) := by
  refine (Viable.inParens
    (S := fun ts => Derivable N .query ts ∨ Derivable N (.list .expression) ts)
    (T := fun ts => TailOf N (notTokens negated ++ .keyword .IN :: ts)) (.accept ?_ ?_) ?_
    ((query_begun N).mono fun _ => .inl)).behind fun _ hts => hts
  · exact ((viable_queryBody h).behind fun _ hq => .inl hq.derivable).map _
  · exact ((viable_list h.expression).mono fun _ hl => .inr hl).map _
  · rintro ts (⟨q, hd⟩ | ⟨list, hd⟩)
    · exact ⟨_, _, hd.inQuery⟩
    · exact ⟨_, _, hd.inList⟩

theorem viable_betweenTail (hN : 0 < N) (h : SubViable N sub) :
    Viable [.keyword .BETWEEN] (fun ts => TailOf N (notTokens negated ++ ts))
      (betweenTail sub negated) := by
  have hname := atLevel_begun hN .operand
  have hhigh : ((Word .AND).then (AtLevel N .operand)).BegunBy [] :=
    (word_begun .AND).followed hname fun us vs hus hvs => ⟨us, vs, rfl, hus, hvs⟩
  refine ((h .operand).bind
    (U := (AtLevel N .operand).then ((Word .AND).then (AtLevel N .operand)))
    (fun _ => ?_) hhigh ?_).behind ?_
  · refine (Viable.word .AND).bind (fun _ => (h .operand).map _) hname ?_
    exact fun us vs hus hvs => ⟨us, vs, rfl, hus, hvs⟩
  · exact fun us vs hus hvs => ⟨us, vs, rfl, hus, hvs⟩
  · rintro _ ⟨us, _, rfl, ⟨_, low, dl⟩, _, vs, rfl, rfl, ⟨ending, high, dh⟩⟩
    exact ⟨ending, _, dl.between dh⟩

theorem viable_likeTail (h : SubViable N sub) :
    Viable [.keyword .LIKE] (fun ts => TailOf N (notTokens negated ++ ts))
      (likeTail sub negated) :=
  ((h .operand).behind fun _ ⟨ending, _, hd⟩ => ⟨ending, _, hd.like⟩).map _

theorem viable_predicateTail (hN : 0 < N) (h : SubViable N sub)
    (ht : predicateTail sub negated t = some r) :
    Viable [t] (fun ts => TailOf N (notTokens negated ++ ts)) r := by
  unfold predicateTail at ht
  split at ht
  case h_4 => cases ht
  all_goals cases ht
  · exact viable_inTail h
  · exact viable_betweenTail hN h
  · exact viable_likeTail h

theorem viable_nullTail : Viable [.keyword .IS] (TailOf N) nullTail := by
  refine (Viable.accepted (S := fun ts => ∃ negated, ts = .keyword .IS :: notTokens negated)
    ⟨false, rfl⟩ ⟨true, rfl⟩).bind (fun _ => (Viable.word .NULL).map _) (word_begun _) ?_
  rintro us vs ⟨negated, rfl⟩ rfl
  exact ⟨_, _, .isNull negated⟩

theorem viable_comparisonTail (hN : 0 < N) (h : SubViable N sub)
    (ht : comparisonTail sub t = some r) : Viable [t] (TailOf N) r := by
  unfold comparisonTail at ht
  split at ht
  · cases ht
    exact viable_nullTail
  · cases ht
    have hlike : Phrases.BegunBy (fun ts => TailOf N (notTokens true ++ ts)) [] := by
      obtain ⟨ending, pattern, hd⟩ := atLevel_name hN .operand
      have hall : ∀ t ∈ [Token.keyword .LIKE, .identifier "a"], t.IsLexical :=
        List.forall_mem_cons.mpr ⟨trivial, List.forall_mem_singleton.mpr isLexical_name⟩
      exact .nil ⟨ending, _, hd.like⟩ hall
    exact (Viable.dispatch hlike fun t r ht => viable_predicateTail hN h ht).behind fun _ hts => hts
  · split at ht
    · next op hop =>
      cases ht
      rw [comparison?_eq_some hop]
      exact ((h .operand).behind fun _ ⟨ending, _, hd⟩ => ⟨ending, _, hd.compare⟩).map _
    · have htail := viable_predicateTail hN h ht
      exact htail

/-! ### Operands -/

theorem viable_rowTest (h : SubViable N sub) :
    Viable [] (fun ts => ∃ us, ts = enclose us ∧ Derivable N .query us) (rowTest sub negated) :=
  ((viable_query h).inParens (fun us hq => ⟨us, rfl, hq⟩)
    (query_begun N)).map _

/-- `NOT` before anything but `EXISTS` is a `NOT` before a comparison. -/
theorem viable_negation (hN : 0 < N) (h : SubViable N sub) :
    Viable [.keyword .NOT] (AtLevel (N + 1) .operand) (negation sub) := by
  refine .acceptElse ?_ ((h .comparison).map _) ?_ ?_
  · refine (viable_rowTest h).behind ?_
    rintro ts ⟨us, rfl, q, hd⟩
    exact ⟨.closed, _, hd.hasNoRows⟩
  · rintro ts ⟨ending, e, hd⟩ hhead
    exact ⟨.ajar, _, hd.not fun _ => hhead⟩
  · obtain ⟨ending, e, hd⟩ := atLevel_name hN .comparison
    exact ⟨[.identifier "a"], ⟨.ajar, _, hd.not fun _ => nofun⟩,
      List.forall_mem_singleton.mpr isLexical_name⟩

theorem viable_parenthesis (h : SubViable N sub) :
    Viable [.leftParen] (AtLevel (N + 1) .operand) (parenthesis sub) := by
  refine (Viable.accept ?_ ?_).enclosed
    (S := fun ts => Derivable N .query ts ∨ Derivable N .expression ts) ?_
  · exact ((viable_queryBody h).behind fun _ hq => .inl hq.derivable).map _
  · exact (h.expression.mono fun _ he => .inr he).map _
  · rintro ts (⟨q, hd⟩ | ⟨e, hd⟩)
    · exact ⟨.closed, _, hd.subquery⟩
    · exact ⟨.closed, _, hd.paren⟩

theorem viable_arguments (h : SubViable N sub) :
    Viable [.leftParen] (fun ts => ∃ us, ts = enclose us ∧ Derivable N .arguments us)
      (arguments sub) := by
  refine .accept (.pure ⟨[], rfl, _, .noArguments⟩) ?_
  refine (Viable.accept ?_ ?_).enclosed (S := Derivable N .arguments) fun us hus => ⟨us, rfl, hus⟩
  · exact .pure ⟨_, .starArgument⟩
  · exact (viable_list h.expression).mono fun _ ⟨es, hd⟩ => ⟨es, hd.arguments⟩

theorem viable_named (h : SubViable N sub) {name : String} :
    Viable [.identifier name] (AtLevel (N + 1) .operand) (named sub name) := by
  refine .accept ?_ (.accept ?_ (.pure ?_))
  · refine ((viable_arguments h).further ?_).map _
    rintro ts ⟨us, rfl, args, hd⟩
    exact ⟨.closed, _, hd.call⟩
  · refine ((viable_identifier .columnName).behind ?_).map _
    rintro ts ⟨x, rfl⟩
    exact ⟨.closed, _, .column (c := ⟨some name, x⟩)⟩
  · exact ⟨.closed, _, .column (c := ⟨none, name⟩)⟩

theorem viable_operand (hN : 0 < N) (h : SubViable N sub) {r : Reader Expr}
    (ht : operand sub t = some r) : Viable [t] (AtLevel (N + 1) .operand) r := by
  unfold operand at ht
  split at ht
  case h_10 => cases ht
  case h_6 =>
    cases ht
    exact viable_negation hN h
  case h_7 =>
    cases ht
    refine (viable_rowTest h).behind ?_
    rintro ts ⟨us, rfl, q, hd⟩
    exact ⟨.closed, _, hd.hasRows⟩
  case h_8 =>
    cases ht
    exact viable_parenthesis h
  case h_9 =>
    cases ht
    exact viable_named h
  all_goals
    cases ht
    exact .pure ⟨.closed, _, .literal (by constructor)⟩

/-! ### Operands with their tails -/

variable {level : Level} {e : Expr}

theorem AtLevel.of_comparison (hlevel : level ≠ .operand) (h : AtLevel N .comparison ts) :
    AtLevel N level ts := by
  obtain ⟨ending, e, hd⟩ := h
  cases level with
  | operand => exact absurd rfl hlevel
  | comparison => exact ⟨ending, e, hd⟩
  | conjunction => exact ⟨e, hd.comparison⟩
  | disjunction => exact ⟨e, hd.comparison.conjunction⟩

theorem AtLevel.of_conjunction (hlevel : level = .conjunction ∨ level = .disjunction)
    (h : AtLevel N .conjunction ts) : AtLevel N level ts := by
  obtain ⟨e, hd⟩ := h
  rcases hlevel with rfl | rfl
  · exact ⟨e, hd⟩
  · exact ⟨e, hd.conjunction⟩

theorem AtLevel.of_operand (h : AtLevel N .operand ts) : AtLevel N level ts := by
  by_cases hlevel : level = .operand
  · rwa [hlevel]
  · obtain ⟨ending, e, hd⟩ := h
    exact .of_comparison hlevel ⟨ending, e, hd.operand⟩

theorem viable_andTail (h : SubViable N sub) (ht : andTail sub t = some r) :
    Viable [t] (fun ts => ∃ us, ts = .keyword .AND :: us ∧ AtLevel N .comparison us) r := by
  unfold andTail at ht
  split at ht <;> cases ht
  exact ((h .comparison).behind fun us hus => ⟨us, rfl, hus⟩).map _

theorem viable_orTail (h : SubViable N sub) (ht : orTail sub t = some r) :
    Viable [t] (fun ts => ∃ us, ts = .keyword .OR :: us ∧ AtLevel N .conjunction us) r := by
  unfold orTail at ht
  split at ht <;> cases ht
  exact ((h .conjunction).behind fun us hus => ⟨us, rfl, hus⟩).map _

section Progress

variable {used : List Token} (hN : 0 < N) (h : SubViable N sub)
include hN h

theorem Progress.viable_comparisonTail (hp : Progress (N + 1) level used e (t :: us))
    (hlevel : level ≠ .operand) (ht : Grammar.comparisonTail sub t = some r) :
    Viable [t] (fun ts => AtLevel (N + 1) level (used ++ ts)) r := by
  have hbegins : beginsComparison t = true := by
    rw [← isSome_comparisonTail sub t, ht]
    rfl
  refine (Grammar.viable_comparisonTail hN h ht).mono ?_
  rintro ts ⟨ending, tail, hd⟩
  cases hp with
  | comparison ending' hl _ =>
    exact .of_comparison hlevel ⟨ending, _, hl.joined_of_longest.tail nofun hd⟩
  | conjunction _ _ hclear => simp [beginsTail, hbegins] at hclear
  | disjunction _ _ hclear => simp [beginsTail, hbegins] at hclear

omit hN in
theorem Progress.viable_andTail (hp : Progress (N + 1) level used e (t :: us))
    (hlevel : level = .conjunction ∨ level = .disjunction) (ht : Grammar.andTail sub t = some r) :
    Viable [t] (fun ts => AtLevel (N + 1) level (used ++ ts)) r := by
  have hand : t = .keyword .AND := by simpa [ht] using (isSome_andTail sub t).symm
  refine (Grammar.viable_andTail h ht).mono ?_
  rintro ts ⟨vs, rfl, ending, right, hd⟩
  cases hp with
  | comparison _ hl _ =>
    exact .of_conjunction hlevel ⟨_, hl.joined_of_longest.comparison.and hd⟩
  | conjunction _ hl _ => exact .of_conjunction hlevel ⟨_, hl.joined_of_longest.and hd⟩
  | disjunction _ _ hclear => simp [beginsTail, hand] at hclear

omit hN in
theorem Progress.viable_orTail (hp : Progress (N + 1) .disjunction used e (t :: us))
    (ht : Grammar.orTail sub t = some r) :
    Viable [t] (fun ts => AtLevel (N + 1) .disjunction (used ++ ts)) r := by
  refine (Grammar.viable_orTail h ht).mono ?_
  rintro ts ⟨vs, rfl, right, hd⟩
  cases hp with
  | comparison _ hl _ => exact ⟨_, hl.joined_of_longest.comparison.conjunction.or hd⟩
  | conjunction _ hl _ => exact ⟨_, hl.joined_of_longest.conjunction.or hd⟩
  | disjunction _ hl _ => exact ⟨_, hl.joined_of_longest.or hd⟩

/-- Whatever tail comes next can be completed behind what has been read. -/
theorem Progress.viable (hp : Progress (N + 1) level used e (t :: us))
    (ht : Grammar.tail sub level t = some r) :
    Viable [t] (fun ts => AtLevel (N + 1) level (used ++ ts)) r := by
  cases level with
  | operand => cases ht
  | comparison => exact hp.viable_comparisonTail hN h nofun ht
  | conjunction =>
    rcases Option.or_eq_some_iff.mp ht with ht | ⟨-, ht⟩
    · exact hp.viable_andTail h (.inl rfl) ht
    · exact hp.viable_comparisonTail hN h nofun ht
  | disjunction =>
    rcases Option.or_eq_some_iff.mp ht with ht | ⟨-, ht⟩
    · exact hp.viable_orTail h ht
    · rcases Option.or_eq_some_iff.mp ht with ht | ⟨-, ht⟩
      · exact hp.viable_andTail h (.inr rfl) ht
      · exact hp.viable_comparisonTail hN h nofun ht

theorem Progress.stops (hs : Sound N sub) {fault : Fault} (hdeep : fault ≠ .tooDeep)
    (hp : Progress (N + 1) level used e ts)
    (hr : (repeated (Grammar.tail sub level)).read ts = .failed fault rest) :
    ∃ taken, ts = taken ++ rest ∧ (AtLevel (N + 1) level).BegunBy (used ++ taken) ∧
      fault.Among (used ++ taken) rest := by
  refine repeated_failed_induction (P := fun ts => ∀ used e, Progress (N + 1) level used e ts →
    ∃ taken, ts = taken ++ rest ∧ (AtLevel (N + 1) level).BegunBy (used ++ taken) ∧
      fault.Among (used ++ taken) rest) ?_ ?_ hr used e hp
  · intro t us r ht hread used e hp
    obtain ⟨taken, rfl, hbegun, hamong⟩ := (hp.viable hN h ht).stops hread hdeep
    exact ⟨t :: taken, rfl, hbegun.behind fun _ hlevel => hlevel, hamong.behind used⟩
  · intro t us r f mid ht hread ih used e hp
    obtain ⟨before, hbefore, hp'⟩ := hp.tail hs ht hread
    obtain ⟨taken, rfl, hbegun, hamong⟩ := ih _ _ hp'
    exact ⟨before ++ taken, by simp [hbefore], by simpa using hbegun, by simpa using hamong⟩

end Progress

theorem Phrase.atLevel (h : Phrase N level ts e rest) : AtLevel N level ts := by
  cases level with
  | operand =>
    obtain ⟨ending, hd, -⟩ := h
    exact ⟨ending, e, hd.joined_of_longest⟩
  | comparison =>
    obtain ⟨⟨ending, hd⟩, -⟩ := h
    exact ⟨ending, e, hd.joined_of_longest⟩
  | conjunction => exact ⟨e, h.1.joined_of_longest⟩
  | disjunction => exact ⟨e, h.1.joined_of_longest⟩

theorem viable_operandAndTails (hN : 0 < N) (hs : Sound N sub) (h : SubViable N sub)
    (level : Level) : Viable [] (AtLevel (N + 1) level) (operandAndTails sub level) where
  takes hread := by
    obtain ⟨used, hts, hphrase⟩ := operandAndTails_takes hs hread
    exact ⟨used, hts, hphrase.atLevel⟩
  stops hread hdeep := by
    rcases bind_failed.mp hread with hfirst | ⟨first, mid, hfirst, hmore⟩
    · have hviable : Viable [] (AtLevel (N + 1) .operand)
          (dispatch (operand sub) .expression) :=
        .dispatch (atLevel_begun (Nat.succ_pos N) .operand) fun t r ht => viable_operand hN h ht
      exact (hviable.mono fun _ => .of_operand).stops hfirst hdeep
    · rcases bind_failed.mp hmore with htails | ⟨_, _, _, hpure⟩
      case inr => cases hpure
      obtain ⟨t, us, r, rfl, ht, hoperand⟩ := dispatch_done.mp hfirst
      obtain ⟨used, rfl, ending, hd, hclear⟩ := operand_takes hs ht hoperand
      have hp : Progress (N + 1) level (t :: used) first mid := .comparison ending hd.operand hclear
      obtain ⟨taken, rfl, hbegun, hamong⟩ := hp.stops hN h hs hdeep htails
      exact ⟨t :: used ++ taken, by simp, by simpa using hbegun, hamong⟩

/-! ### Expressions, statements and scripts -/

theorem Phrase.mono {n m : Nat} (h : Phrase n level ts e rest) (hnm : n ≤ m) :
    Phrase m level ts e rest := by
  cases level with
  | operand =>
    obtain ⟨ending, hd, hclear⟩ := h
    exact ⟨ending, hd.mono hnm, hclear⟩
  | comparison =>
    obtain ⟨⟨ending, hd⟩, hclear⟩ := h
    exact ⟨⟨ending, hd.mono hnm⟩, hclear⟩
  | conjunction => exact ⟨h.1.mono hnm, h.2⟩
  | disjunction => exact ⟨h.1.mono hnm, h.2⟩

theorem Sound.mono {n m : Nat} (h : Sound n sub) (hnm : n ≤ m) : Sound m sub := by
  intro level ts e rest hread
  obtain ⟨used, hts, hphrase⟩ := h hread
  exact ⟨used, hts, hphrase.mono hnm⟩

/-- One level more than the limit is enough to complete what has been read. -/
theorem expression_viable (n : Nat) : SubViable (n + 1) (expression n) := by
  induction n with
  | zero =>
    intro level
    exact ⟨fun hread => absurd hread fail_not_done,
      fun hread hdeep => absurd (fail_failed.mp hread).1.symm hdeep⟩
  | succ n ih =>
    intro level
    have hviable := viable_operandAndTails (Nat.succ_pos n)
      ((expression_sound n).mono (Nat.le_succ n)) ih level
    exact ⟨hviable.takes, hviable.stops⟩

theorem statement_viable (n : Nat) : Viable [] (Derivable (n + 1) .query) (statement n) :=
  viable_query (expression_viable n)

theorem wholeExpression_viable (n : Nat) :
    Viable [] (Derivable (n + 1) .expression) (wholeExpression n) :=
  (expression_viable n).expression.whole

/-- A query that a semicolon may close. -/
def Closed (N : Nat) : Phrases :=
  fun ts => ∃ us, (ts = us ∨ ts = us ++ [.semicolon]) ∧ Derivable N .query us

theorem wholeStatement_viable (n : Nat) : Viable [] (Closed (n + 1)) (wholeStatement n) := by
  have hclosing : Viable [] (fun ts => ts = [] ∨ ts = [.semicolon]) (accept [.semicolon]) :=
    .accepted (.inl rfl) (.inr rfl)
  have hend : Viable [] (fun ts => ts = []) endOfInput := .endOfInput rfl
  refine (statement_viable n).bind
    (fun _ => hclosing.bind (U := fun ts => ts = [] ∨ ts = [.semicolon])
      (fun _ => hend.map _) (.of rfl) ?_) (.of (.inl rfl)) ?_
  · rintro us vs hus rfl
    rwa [List.append_nil]
  · rintro us vs hus (rfl | rfl)
    · exact ⟨us, .inl (List.append_nil us), hus⟩
    · exact ⟨us, .inr rfl, hus⟩

/-- What stands before, between and behind the semicolons of a script. -/
def Slot (N : Nat) : Phrases := fun ts => ts = [] ∨ Derivable N .query ts

/-- The slots of a script behind the first. -/
def Slots (N : Nat) : Phrases :=
  fun ts => ∃ slots : List (List Token), (∀ slot ∈ slots, Slot N slot) ∧
    ts = slots.flatMap (.semicolon :: ·)

theorem viable_slot (n : Nat) : Viable [] (Slot (n + 1)) (slot n) :=
  have hbody := viable_queryBody (expression_viable n)
  .introduced (hbody.behind fun _ h => .inr h.derivable) (.inl rfl)

theorem viable_slots (n : Nat) :
    Viable [] (Slots (n + 1))
      (repeated fun t => if t = .semicolon then some (slot n) else none) := by
  refine .repeated ⟨[], nofun, rfl⟩
    (T := fun ts => ∃ slot, Slot (n + 1) slot ∧ ts = .semicolon :: slot) (fun t r ht => ?_) ?_
  · split at ht <;> cases ht
    next ht =>
      subst ht
      exact (viable_slot n).behind fun ts hts => ⟨ts, hts, rfl⟩
  · rintro _ _ ⟨slots, hslots, rfl⟩ ⟨slot, hslot, rfl⟩
    refine ⟨slots ++ [slot], ?_, by simp⟩
    exact List.forall_mem_append.mpr ⟨hslots, by simpa using hslot⟩

theorem script_viable (n : Nat) :
    Viable [] ((Slot (n + 1)).then (Slots (n + 1))) (script n) := by
  refine (viable_slot n).bind_then ⟨[], nofun, rfl⟩ fun first => ?_
  refine (viable_slots n).bind (T := fun ts => ts = []) (fun more => ?_) (.of rfl) ?_
  · have hfail : Viable [] (fun ts => ts = [])
        (fail (.expected (missing (first :: more))) : Reader Unit) := .fail (.of rfl)
    exact .atEnd (.pure rfl) (hfail.map _)
  · rintro us vs hus rfl
    rwa [List.append_nil]

end Grammar
end QueryCanon
