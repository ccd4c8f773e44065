/-
Queries come back out of JSON.

`Query.ofJson?` undoes `Query.toJson`, and so for each part of a query.  A kind is told by its
tag, a missing part by `null`, and a list by its array, so that no two trees are written alike.
-/
import QueryCanon.Query.OfJson
import QueryCanon.Query.ToJson

namespace QueryCanon

open Json (field? stringField? optionalStringField? boolField? listField?)

/-! ### Parts without an expression -/

theorem Json.optionalString?_optionalString (s : Option String) :
    (Json.optionalString s).optionalString? = some s := by
  cases s <;> rfl

theorem Json.strings?_map (names : List String) :
    Json.strings? (names.map Json.string) = some names := by
  induction names with
  | nil => rfl
  | cons name names ih => simp [Json.strings?, Json.string?, ih]

/-- What each element of a list is read back from, the list is. -/
theorem mapM_map {α : Type} {write : α → Json} {read : Json → Option α}
    (h : ∀ a, read (write a) = some a) (as : List α) : (as.map write).mapM read = some as := by
  induction as with
  | nil => rfl
  | cons a as ih => simp [h, ih]

theorem Literal.ofJson?_toJson (l : Literal) : Literal.ofJson? l.toJson = some l := by
  cases l <;> rfl

theorem Comparison.ofName?_name (op : Comparison) : Comparison.ofName? op.name = some op := by
  cases op <;> rfl

theorem JoinKind.ofName?_name (kind : JoinKind) : JoinKind.ofName? kind.name = some kind := by
  cases kind <;> rfl

theorem Direction.ofName?_name (d : Direction) : Direction.ofName? d.name = some d := by
  cases d <;> rfl

theorem NullsPlace.ofName?_name (place : NullsPlace) :
    NullsPlace.ofName? place.name = some place := by
  cases place <;> rfl

theorem optionalName?_map {α : Type} {name : α → String} {read : String → Option α}
    (h : ∀ a, read (name a) = some a) (o : Option α) :
    optionalName? read (o.map name) = some o := by
  cases o with
  | none => rfl
  | some a => simp [optionalName?, h]

theorem ColumnRef.ofJson?_toJson (c : ColumnRef) : ColumnRef.ofJson? c.toJson = some c := by
  obtain ⟨_ | qualifier, name⟩ := c <;> rfl

theorem TableRef.ofJson?_toJson (t : TableRef) : TableRef.ofJson? t.toJson = some t := by
  obtain ⟨_ | qualifier, name, _ | label⟩ := t <;> rfl

theorem OrderTarget.ofJson?_toJson (t : OrderTarget) : OrderTarget.ofJson? t.toJson = some t := by
  cases t with
  | ordinal text => rfl
  | column c => simp [OrderTarget.toJson, Json.tagged, OrderTarget.ofJson?, c.ofJson?_toJson]

theorem OrderItem.ofJson?_toJson (item : OrderItem) :
    OrderItem.ofJson? item.toJson = some item := by
  simp [OrderItem.toJson, OrderItem.ofJson?, field?, optionalStringField?,
    Json.optionalString?_optionalString, item.target.ofJson?_toJson,
    optionalName?_map Direction.ofName?_name, optionalName?_map NullsPlace.ofName?_name]

/-! ### Parts that may be missing -/

theorem Source.toJson_join (l r : Source) (kind : JoinKind) (condition : Option JoinCondition) :
    (Source.join l r kind condition).toJson =
      .tagged "Join" (.object [("left", l.toJson), ("right", r.toJson),
        ("join_type", .string kind.name),
        ("condition", condition.elim .null JoinCondition.toJson)]) := by
  cases condition <;> rfl

theorem Query.toJson_eq (items : List SelectItem) (source : Option Source) (scope : Option String)
    (filter : Option Expr) (groups : List ColumnRef) (groupFilter : Option Expr)
    (order : List OrderItem) (limit : Option String) :
    Query.toJson ⟨items, source, scope, filter, groups, groupFilter, order, limit⟩ =
      .object [("items", .array (SelectItem.eachToJson items)),
        ("from", source.elim .null Source.toJson), ("using_scope", .optionalString scope),
        ("where_clause", filter.elim .null Expr.toJson),
        ("group_by", .array (groups.map ColumnRef.toJson)),
        ("having", groupFilter.elim .null Expr.toJson),
        ("order_by", .array (order.map OrderItem.toJson)), ("limit", .optionalString limit)] := by
  -- The recursion reduces once it is known which parts there are.
  cases source <;> cases filter <;> cases groupFilter <;> rfl

/-! ### Expressions and queries -/

mutual

theorem Expr.ofJson?_toJson (e : Expr) : Expr.ofJson? e.toJson = some e := by
  cases e with
  | star => simp [Expr.toJson, Expr.ofJson?]
  | column c => simp [Expr.toJson, Json.tagged, Expr.ofJson?, c.ofJson?_toJson]
  | literal l => simp [Expr.toJson, Json.tagged, Expr.ofJson?, l.ofJson?_toJson]
  | call name args =>
    have hargs := Expr.listOfJson?_toJson args
    simp [Expr.toJson, Json.tagged, Expr.ofJson?, field?, stringField?, Json.string?, hargs]
  | subquery q =>
    have hq := q.ofJson?_toJson
    simp [Expr.toJson, Json.tagged, Expr.ofJson?, hq]
  | and l r =>
    have hl := l.ofJson?_toJson
    have hr := r.ofJson?_toJson
    simp [Expr.toJson, Json.tagged, Expr.ofJson?, hl, hr]
  | or l r =>
    have hl := l.ofJson?_toJson
    have hr := r.ofJson?_toJson
    simp [Expr.toJson, Json.tagged, Expr.ofJson?, hl, hr]
  | not e =>
    have he := e.ofJson?_toJson
    simp [Expr.toJson, Json.tagged, Expr.ofJson?, he]
  | paren e =>
    have he := e.ofJson?_toJson
    simp [Expr.toJson, Json.tagged, Expr.ofJson?, he]
  | compare l op r =>
    have hl := l.ofJson?_toJson
    have hr := r.ofJson?_toJson
    simp [Expr.toJson, Json.tagged, Expr.ofJson?, field?, stringField?, Json.string?, hl, hr,
      op.ofName?_name]
  | between e low high negated =>
    have he := e.ofJson?_toJson
    have hlow := low.ofJson?_toJson
    have hhigh := high.ofJson?_toJson
    simp [Expr.toJson, Json.tagged, Expr.ofJson?, field?, boolField?, Json.bool?, he, hlow, hhigh]
  | inList e list negated =>
    have he := e.ofJson?_toJson
    have hlist := Expr.listOfJson?_toJson list
    simp [Expr.toJson, Json.tagged, Expr.ofJson?, field?, boolField?, Json.bool?, he, hlist]
  | inQuery e q negated =>
    have he := e.ofJson?_toJson
    have hq := q.ofJson?_toJson
    simp [Expr.toJson, Json.tagged, Expr.ofJson?, field?, boolField?, Json.bool?, he, hq]
  | like e pattern negated =>
    have he := e.ofJson?_toJson
    have hpattern := pattern.ofJson?_toJson
    simp [Expr.toJson, Json.tagged, Expr.ofJson?, field?, boolField?, Json.bool?, he, hpattern]
  | isNull e negated =>
    have he := e.ofJson?_toJson
    simp [Expr.toJson, Json.tagged, Expr.ofJson?, field?, boolField?, Json.bool?, he]
  | hasRows q negated =>
    have hq := q.ofJson?_toJson
    simp [Expr.toJson, Json.tagged, Expr.ofJson?, field?, boolField?, Json.bool?, hq]
termination_by structural e

theorem Expr.listOfJson?_toJson (es : List Expr) :
    Expr.listOfJson? (.array (Expr.eachToJson es)) = some es := by
  cases es with
  | nil => simp [Expr.eachToJson, Expr.listOfJson?]
  | cons e es =>
    have he := e.ofJson?_toJson
    have hes := Expr.listOfJson?_toJson es
    simp [Expr.eachToJson, Expr.listOfJson?, he, hes]
termination_by structural es

/-- No expression is written as `null`. -/
theorem Expr.optionalOfJson?_toJson (e : Option Expr) :
    Expr.optionalOfJson? (e.elim .null Expr.toJson) = some e := by
  cases e with
  | none => rw [Option.elim, Expr.optionalOfJson?]
  | some e =>
    have he := e.ofJson?_toJson
    cases e <;> simp_all [Expr.toJson, Json.tagged, Expr.optionalOfJson?]
termination_by structural e

theorem SelectItem.ofJson?_toJson (item : SelectItem) :
    SelectItem.ofJson? item.toJson = some item := by
  obtain ⟨e, label⟩ := item
  have he := e.ofJson?_toJson
  simp [SelectItem.toJson, SelectItem.ofJson?, field?, optionalStringField?, he,
    Json.optionalString?_optionalString]
termination_by structural item

theorem SelectItem.listOfJson?_toJson (items : List SelectItem) :
    SelectItem.listOfJson? (.array (SelectItem.eachToJson items)) = some items := by
  cases items with
  | nil => simp [SelectItem.eachToJson, SelectItem.listOfJson?]
  | cons item items =>
    have hitem := item.ofJson?_toJson
    have hitems := SelectItem.listOfJson?_toJson items
    simp [SelectItem.eachToJson, SelectItem.listOfJson?, hitem, hitems]
termination_by structural items

theorem JoinCondition.ofJson?_toJson (c : JoinCondition) :
    JoinCondition.ofJson? c.toJson = some c := by
  cases c with
  | test e =>
    have he := e.ofJson?_toJson
    simp [JoinCondition.toJson, Json.tagged, JoinCondition.ofJson?, he]
  | columns names =>
    simp [JoinCondition.toJson, Json.tagged, JoinCondition.ofJson?, Json.strings?_map]
termination_by structural c

theorem JoinCondition.optionalOfJson?_toJson (c : Option JoinCondition) :
    JoinCondition.optionalOfJson? (c.elim .null JoinCondition.toJson) = some c := by
  cases c with
  | none => rw [Option.elim, JoinCondition.optionalOfJson?]
  | some c =>
    have hc := c.ofJson?_toJson
    cases c <;> simp_all [JoinCondition.toJson, Json.tagged, JoinCondition.optionalOfJson?]
termination_by structural c

theorem Source.ofJson?_toJson (s : Source) : Source.ofJson? s.toJson = some s := by
  cases s with
  | table t => simp [Source.toJson, Json.tagged, Source.ofJson?, t.ofJson?_toJson]
  | join l r kind condition =>
    have hl := l.ofJson?_toJson
    have hr := r.ofJson?_toJson
    have hcondition := JoinCondition.optionalOfJson?_toJson condition
    simp [Source.toJson_join, Json.tagged, Source.ofJson?, field?, stringField?, Json.string?, hl,
      hr, kind.ofName?_name, hcondition]
termination_by structural s

theorem Source.optionalOfJson?_toJson (s : Option Source) :
    Source.optionalOfJson? (s.elim .null Source.toJson) = some s := by
  cases s with
  | none => rw [Option.elim, Source.optionalOfJson?]
  | some s =>
    have hs := s.ofJson?_toJson
    cases s with
    | table t => simp_all [Source.toJson, Json.tagged, Source.optionalOfJson?]
    | join l r kind condition =>
      rw [Source.toJson_join, Json.tagged] at hs
      rw [Option.elim, Source.toJson_join, Json.tagged, Source.optionalOfJson?, hs]
      rfl
termination_by structural s

theorem Query.ofJson?_toJson (q : Query) : Query.ofJson? q.toJson = some q := by
  obtain ⟨items, source, scope, filter, groups, groupFilter, order, limit⟩ := q
  have hitems := SelectItem.listOfJson?_toJson items
  have hsource := Source.optionalOfJson?_toJson source
  have hfilter := Expr.optionalOfJson?_toJson filter
  have hgroupFilter := Expr.optionalOfJson?_toJson groupFilter
  simp [Query.toJson_eq, Query.ofJson?, field?, optionalStringField?, listField?, Json.array?,
    hitems, hsource, hfilter, hgroupFilter, Json.optionalString?_optionalString,
    mapM_map ColumnRef.ofJson?_toJson, mapM_map OrderItem.ofJson?_toJson]
termination_by structural q

end

end QueryCanon
