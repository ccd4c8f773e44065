/-
The canonical text of a query is the layout of its tokens.

The text is put together from the texts of the parts, with the spaces that are written between
them.  The layout knows no parts: it puts a space between every two tokens of which neither leans
on the other.  The two agree because no part begins or ends with a sign that leans on what stands
around the part (`Part`), so wherever two parts are joined the layout has the one space too.
-/
import QueryCanon.Proofs.Query.Clauses
import QueryCanon.Query.Text

namespace QueryCanon

variable {ts us : List Token} {t u : Token} {a b front middle : String}

namespace Layout

/-! ### Joints -/

/-- A space may stand in front of the token. -/
def opens : Token → Bool
  | .rightParen => false
  | .comma => false
  | .dot => false
  | _ => true

/-- A space may stand behind the token. -/
def closes : Token → Bool
  | .leftParen => false
  | .dot => false
  | _ => true

/-- Such tokens have a space between them, but for the name of a call and its parenthesis. -/
theorem spaced_of_closes (ht : closes t = true) (hu : opens u = true)
    (h : (∀ name, t ≠ .identifier name) ∨ u ≠ .leftParen) : spaced t u = true := by
  unfold spaced
  split <;> simp_all [closes, opens]

theorem chars_append (ht : ts.getLast? = some t) (hu : us.head? = some u) :
    chars (ts ++ us) = chars ts ++ space t u ++ chars us := by
  obtain ⟨more, rfl⟩ := List.head?_eq_some_iff.mp hu
  induction ts with
  | nil => cases ht
  | cons v ts ih =>
    cases ts with
    | nil =>
      cases ht
      rfl
    | cons w ts =>
      have hmore := ih (by rwa [List.getLast?_cons_cons] at ht)
      rw [List.cons_append, List.cons_append, chars_cons_cons, ← List.cons_append, hmore,
        chars_cons_cons]
      simp only [List.append_assoc]

/-- Parentheses lean on what they enclose. -/
theorem chars_enclose (ts : List Token) : chars (enclose ts) = '(' :: chars ts ++ [')'] := by
  have hopen : ∀ us, chars (.leftParen :: us) = '(' :: chars us := by
    intro us
    cases us <;> rfl
  have hclose : chars (ts ++ [.rightParen]) = chars ts ++ [')'] := by
    cases hlast : ts.getLast? with
    | none =>
      rw [List.getLast?_eq_none_iff.mp hlast]
      rfl
    | some t =>
      have hspace : space t .rightParen = [] := by cases t <;> rfl
      rw [chars_append hlast rfl, hspace, List.append_nil]
      rfl
  rw [enclose, List.cons_append, hopen, hclose, List.cons_append]

/-! ### Parts -/

/-- The tokens have the text for their layout, and a space may stand on both sides of it. -/
structure Part (ts : List Token) (a : String) : Prop where
  chars_eq : chars ts = a.toList
  first : ∃ t, ts.head? = some t ∧ opens t = true
  last : ∃ t, ts.getLast? = some t ∧ closes t = true

/-- What may stand behind a part: nothing, or another part and the space in front of it.  This one
does not begin with a parenthesis, which behind a name would be that of a call. -/
inductive Behind : List Token → String → Prop
  | nothing : Behind [] ""
  | part {ts : List Token} {a : String} :
    Part ts a → ts.head? ≠ some .leftParen → Behind ts (" " ++ a)

/-- Words of the language, and signs of comparison.  These stand between spaces. -/
def areWords : List Token → Bool
  | [] => false
  | ts => ts.all fun
    | .keyword _ => true
    | .eq => true
    | .notEq => true
    | .less => true
    | .lessEq => true
    | .greater => true
    | .greaterEq => true
    | _ => false

namespace Part

theorem text_eq (h : Part ts a) : a = Layout.text ts := by
  rw [Layout.text, h.chars_eq, String.ofList_toList]

theorem token (hopens : opens t = true) (hcloses : closes t = true) : Part [t] t.spelling :=
  ⟨rfl, ⟨t, rfl, hopens⟩, t, rfl, hcloses⟩

/-- Two parts and what stands between them, if the layout is known. -/
theorem around (h : Part ts a) (h' : Part us b) (ws : List Token) {text : String}
    (htext : chars (ts ++ (ws ++ us)) = text.toList) : Part (ts ++ (ws ++ us)) text := by
  obtain ⟨first, hfirst, hopens⟩ := h.first
  obtain ⟨last, hlast, hcloses⟩ := h'.last
  refine ⟨htext, ⟨first, ?_, hopens⟩, last, ?_, hcloses⟩
  · rw [List.head?_append, hfirst, Option.some_or]
  · rw [List.getLast?_append, List.getLast?_append, hlast, Option.some_or, Option.some_or]

/-- Two parts with a space between them. -/
theorem join (h : Part ts a) (h' : Part us b)
    (hcall : (∀ name, ts.getLast? ≠ some (.identifier name)) ∨ us.head? ≠ some .leftParen) :
    Part (ts ++ us) (a ++ (" " ++ b)) := by
  obtain ⟨t, ht, hcloses⟩ := h.last
  obtain ⟨u, hu, hopens⟩ := h'.first
  have hspaced : spaced t u = true := by
    refine spaced_of_closes hcloses hopens ?_
    rw [ht, hu] at hcall
    simpa using hcall
  refine h.around h' [] ?_
  rw [List.nil_append, chars_append ht hu, space, if_pos hspaced, h.chars_eq, h'.chars_eq]
  simp

theorem append (h : Part ts a) (h' : Behind us b) : Part (ts ++ us) (a ++ b) := by
  cases h' with
  | nothing => rwa [List.append_nil, String.append_empty]
  | part h' hne => exact h.join h' (.inr hne)

/-- At neither end of words stands what a call could begin with. -/
theorem words {ws : List Token} (h : areWords ws = true) :
    Part ws (Layout.text ws) ∧ ws.head? ≠ some .leftParen ∧
      ∀ name, ws.getLast? ≠ some (.identifier name) := by
  have hne : ws ≠ [] := by
    rintro rfl
    cases h
  have hall : ∀ w ∈ ws, opens w = true ∧ closes w = true ∧ w ≠ .leftParen ∧
      ∀ name, w ≠ .identifier name := by
    intro w hw
    obtain ⟨v, ws, rfl⟩ := List.exists_cons_of_ne_nil hne
    have hword := List.all_eq_true.mp h w hw
    cases w <;> simp_all [opens, closes]
  have hfirst := hall _ (List.head_mem hne)
  have hlast := hall _ (List.getLast_mem hne)
  rw [List.head?_eq_some_head hne, List.getLast?_eq_some_getLast hne]
  refine ⟨⟨by rw [Layout.text, String.toList_ofList], ⟨_, List.head?_eq_some_head hne, hfirst.1⟩,
    _, List.getLast?_eq_some_getLast hne, hlast.2.1⟩, ?_, fun name => ?_⟩
  · simpa using hfirst.2.2.1
  · simpa using hlast.2.2.2 name

/-- Words in front of a part. -/
theorem lead (h : Part us b) (ws : List Token) (hws : areWords ws = true)
    (hfront : Layout.text ws ++ " " = front) : Part (ws ++ us) (front ++ b) := by
  obtain ⟨hpart, -, hlast⟩ := words hws
  rw [← hfront, String.append_assoc]
  exact hpart.join h (.inl hlast)

/-- Words in front of a part that stands behind another one. -/
theorem behind (h : Part us b) (ws : List Token) (hws : areWords ws = true)
    (hmiddle : " " ++ (Layout.text ws ++ " ") = middle) : Behind (ws ++ us) (middle ++ b) := by
  have hlead := h.lead ws hws rfl
  obtain ⟨-, hfirst, -⟩ := words hws
  have hne : (ws ++ us).head? ≠ some .leftParen := by
    cases ws with
    | nil => cases hws
    | cons w ws => exact hfirst
  rw [← hmiddle, String.append_assoc]
  exact .part hlead hne

/-- Two parts with words between them. -/
theorem joined (h : Part ts a) (h' : Part us b) (ws : List Token) (hws : areWords ws = true)
    (hmiddle : " " ++ (Layout.text ws ++ " ") = middle) :
    Part (ts ++ (ws ++ us)) (a ++ middle ++ b) := by
  rw [String.append_assoc]
  exact h.append (h'.behind ws hws hmiddle)

theorem enclose (h : chars ts = a.toList) : Part (enclose ts) (parenthesize a) := by
  refine ⟨?_, ⟨.leftParen, rfl, rfl⟩, .rightParen, ?_, rfl⟩
  · rw [chars_enclose, h]
    simp [parenthesize]
  · rw [QueryCanon.enclose, List.getLast?_concat]

theorem encloseIf (h : Part ts a) (needed : Bool) :
    Part (encloseIf needed ts) (parenthesizeIf needed a) := by
  cases needed with
  | true => exact .enclose h.chars_eq
  | false => exact h

/-- A call leans on what it encloses. -/
theorem call (name : String) (h : chars ts = a.toList) :
    Part (.identifier name :: QueryCanon.enclose ts) (name ++ parenthesize a) := by
  have henclosed := enclose h
  obtain ⟨last, hlast, hcloses⟩ := henclosed.last
  refine ⟨?_, ⟨_, rfl, rfl⟩, last, hlast, hcloses⟩
  have hname : chars (.identifier name :: QueryCanon.enclose ts) =
      name.toList ++ [] ++ chars (QueryCanon.enclose ts) := rfl
  rw [hname, henclosed.chars_eq, List.append_nil, String.toList_append]

theorem qualified (qualifier : Option String) (name : String) :
    Part (qualifiedTokens qualifier name) (qualifiedText qualifier name) := by
  cases qualifier with
  | none => exact .token (t := .identifier name) rfl rfl
  | some qualifier =>
    refine ⟨?_, ⟨_, rfl, rfl⟩, _, rfl, rfl⟩
    simp [qualifiedTokens, qualifiedText, chars, space, spaced, Token.spelling]

/-! ### Lists -/

/-- Two parts with a comma between them, which leans on the first. -/
theorem comma (h : Part ts a) (h' : Part us b) : Part (ts ++ .comma :: us) (a ++ ", " ++ b) := by
  obtain ⟨t, ht, -⟩ := h.last
  obtain ⟨u, hu, hopens⟩ := h'.first
  have hbefore : space t .comma = [] := by cases t <;> rfl
  have hbehind : space .comma u = [' '] := by
    have hspaced : spaced .comma u = true := spaced_of_closes rfl hopens (.inl fun _ => nofun)
    rw [space, if_pos hspaced]
  have hcomma : chars ([.comma] ++ us) = [','] ++ space .comma u ++ chars us :=
    chars_append rfl hu
  refine h.around h' [.comma] ?_
  rw [chars_append ht rfl, hbefore, hcomma, hbehind, h.chars_eq, h'.chars_eq]
  simp

variable {α : Type} {tokens : α → List Token} {text : α → String} {xs : List α}

theorem list (h : ∀ x ∈ xs, Part (tokens x) (text x)) (hne : xs ≠ []) :
    Part (commaSeparated (xs.map tokens)) (listText (xs.map text)) := by
  induction xs with
  | nil => exact absurd rfl hne
  | cons x xs ih =>
    obtain ⟨hx, hxs⟩ := List.forall_mem_cons.mp h
    cases xs with
    | nil => simpa [listText] using hx
    | cons y more =>
      have hmore := hx.comma (ih hxs (List.cons_ne_nil y more))
      rw [List.map_cons, List.map_cons, commaSeparated_cons_cons, listText,
        List.map_cons, List.map_cons, String.intercalate_cons_cons]
      exact hmore

/-- What a call or a pair of parentheses encloses may be an empty list. -/
theorem chars_list (h : ∀ x ∈ xs, Part (tokens x) (text x)) :
    chars (commaSeparated (xs.map tokens)) = (listText (xs.map text)).toList := by
  by_cases hne : xs = []
  · subst hne
    rfl
  · exact (list h hne).chars_eq

end Part

namespace Behind

theorem label (name : Option String) : Behind (optionalName name) (labelText name) := by
  cases name with
  | none => exact .nothing
  | some name => exact .part (.token (t := .identifier name) rfl rfl) nofun

theorem words (ws : List Token) (h : areWords ws = true) (htext : " " ++ Layout.text ws = a) :
    Behind ws a := by
  obtain ⟨hpart, hfirst, -⟩ := Part.words h
  rw [← htext]
  exact .part hpart hfirst

theorem negated (negated : Bool) : Behind (notTokens negated) (notText negated) := by
  cases negated with
  | false => exact .nothing
  | true => exact .words _ rfl rfl

end Behind
end Layout

open Layout (Part Behind areWords)

/-! ### Parts without an expression -/

theorem Literal.part (l : Literal) : Part [l.token] l.text := by
  cases l with
  | number text =>
    show Part [if text.toList.contains '.' then .decimal text else .integer text] text
    split
    · exact .token (t := .decimal text) rfl rfl
    · exact .token (t := .integer text) rfl rfl
  | string body => exact .token (t := .string body) rfl rfl
  | boolean value => cases value <;> exact .token rfl rfl

theorem ColumnRef.part (c : ColumnRef) : Part c.tokens c.text := .qualified c.qualifier c.name

theorem TableRef.part (t : TableRef) : Part t.tokens t.text :=
  (Part.qualified t.qualifier t.name).append (.label t.label)

theorem OrderItem.part (item : OrderItem) : Part item.tokens item.text := by
  obtain ⟨target, direction, nulls⟩ := item
  have htarget : Part target.tokens target.text := by
    cases target with
    | ordinal text => exact .token (t := .integer text) rfl rfl
    | column c => exact c.part
  refine (htarget.append ?_).append ?_
  · obtain _ | _ | _ := direction
    · exact .nothing
    all_goals exact .words _ rfl rfl
  · obtain _ | _ | _ := nulls
    · exact .nothing
    all_goals exact .words _ rfl rfl

theorem Comparison.between (op : Comparison) :
    areWords [op.token] = true ∧
      " " ++ (Layout.text [op.token] ++ " ") = " " ++ op.text ++ " " := by
  cases op <;> exact ⟨rfl, rfl⟩

theorem JoinKind.between (kind : JoinKind) :
    areWords kind.tokens = true ∧
      " " ++ (Layout.text kind.tokens ++ " ") = " " ++ kind.text ++ " " := by
  cases kind <;> exact ⟨rfl, rfl⟩

/-! ### Clauses -/

/-- What stands behind `front`, or nothing. -/
def clauseText (front : String) : Option String → String
  | none => ""
  | some text => front ++ text

/-- The list that stands behind `front`, or nothing. -/
def byText (front : String) : List String → String
  | [] => ""
  | parts => front ++ listText parts

/-- A whole `WHERE` or `HAVING` condition. -/
def Expr.conditionText (e : Expr) : String := parenthesizeIf e.isConnective e.text

theorem Query.text_clauses (items : List SelectItem) (source : Option Source)
    (scope : Option String) (filter : Option Expr) (groups : List ColumnRef)
    (groupFilter : Option Expr) (order : List OrderItem) (limit : Option String) :
    Query.text ⟨items, source, scope, filter, groups, groupFilter, order, limit⟩ =
      "SELECT " ++ listText (SelectItem.eachText items) ++
        clauseText " FROM " (source.map Source.text) ++ clauseText " USING SCOPE " scope ++
        clauseText " WHERE " (filter.map Expr.conditionText) ++
        byText " GROUP BY " (groups.map ColumnRef.text) ++
        clauseText " HAVING " (groupFilter.map Expr.conditionText) ++
        byText " ORDER BY " (order.map OrderItem.text) ++ clauseText " LIMIT " limit := by
  -- The recursion reduces once the parts that it goes into are known.
  cases source <;> cases scope <;> cases filter <;> cases groups <;> cases groupFilter <;>
    cases order <;> cases limit <;> rfl

namespace Layout.Behind

theorem scope (scope : Option String) :
    Behind (scopeTokens scope) (clauseText " USING SCOPE " scope) := by
  cases scope with
  | none => exact .nothing
  | some name =>
    have hname : Part [.identifier name] name := .token (t := .identifier name) rfl rfl
    exact hname.behind [.keyword .USING, .keyword .SCOPE] rfl rfl

theorem limit (limit : Option String) :
    Behind (limitTokens limit) (clauseText " LIMIT " limit) := by
  cases limit with
  | none => exact .nothing
  | some text =>
    have htext : Part [.integer text] text := .token (t := .integer text) rfl rfl
    exact htext.behind [.keyword .LIMIT] rfl rfl

variable {α : Type} {tokens : α → List Token} {text : α → String}

theorem clause {x : Option α} (h : ∀ a ∈ x, Part (tokens a) (text a)) (k : Keyword)
    (hmiddle : " " ++ (Layout.text [.keyword k] ++ " ") = middle) :
    Behind (clauseTokens k (x.map tokens)) (clauseText middle (x.map text)) := by
  cases x with
  | none => exact .nothing
  | some a => exact (h a rfl).behind [.keyword k] rfl hmiddle

theorem list {xs : List α} (h : ∀ x ∈ xs, Part (tokens x) (text x)) (k : Keyword)
    (hmiddle : " " ++ (Layout.text [.keyword k, .keyword .BY] ++ " ") = middle) :
    Behind (byTokens k (xs.map tokens)) (byText middle (xs.map text)) := by
  cases xs with
  | nil => exact .nothing
  | cons x xs =>
    have hlist := Part.list h (List.cons_ne_nil x xs)
    exact hlist.behind [.keyword k, .keyword .BY] rfl hmiddle

end Layout.Behind

/-! ### Expressions and queries -/

theorem Expr.eachText_eq_map (es : List Expr) : Expr.eachText es = es.map Expr.text := by
  induction es with
  | nil => rfl
  | cons e es ih => rw [Expr.eachText, ih, List.map_cons]

theorem SelectItem.eachText_eq_map (items : List SelectItem) :
    SelectItem.eachText items = items.map SelectItem.text := by
  induction items with
  | nil => rfl
  | cons item items ih => rw [SelectItem.eachText, ih, List.map_cons]

theorem Expr.chars_each {es : List Expr} (h : ∀ e ∈ es, Part e.tokens e.text) :
    Layout.chars (commaSeparated (Expr.eachTokens es)) = (listText (Expr.eachText es)).toList := by
  rw [Expr.eachTokens_eq_map, Expr.eachText_eq_map]
  exact Part.chars_list h

/-- A query without items has an empty place for them. -/
theorem SelectItem.list {items : List SelectItem} (h : ∀ item ∈ items, Part item.tokens item.text) :
    Part (itemTokens (SelectItem.eachTokens items)) (listText (SelectItem.eachText items)) := by
  by_cases hne : items = []
  · subst hne
    exact .token (t := .identifier "") rfl rfl
  · rw [itemTokens_eq hne, SelectItem.eachText_eq_map]
    exact Part.list h hne

theorem JoinCondition.columns_part (names : List String) :
    Part (JoinCondition.columns names).tokens (JoinCondition.columns names).text := by
  have hnames : Layout.chars (commaSeparated (names.map fun name => [.identifier name])) =
      (listText (names.map id)).toList :=
    Part.chars_list fun name _ => .token (t := .identifier name) rfl rfl
  rw [List.map_id] at hnames
  exact (Part.enclose hnames).lead [.keyword .USING] rfl rfl

mutual

theorem Expr.part (e : Expr) : Part e.tokens e.text := by
  cases e with
  | star => exact .token (t := .star) rfl rfl
  | column c => exact c.part
  | literal l => exact l.part
  | call name args => exact .call name (Expr.chars_each (Expr.eachPart args))
  | subquery q => exact .enclose (Query.part q).chars_eq
  | and l r =>
    exact ((Expr.part l).encloseIf _).joined ((Expr.part r).encloseIf _) [.keyword .AND] rfl rfl
  | or l r => exact (Expr.part l).joined (Expr.part r) [.keyword .OR] rfl rfl
  | not e => exact ((Expr.part e).encloseIf _).lead [.keyword .NOT] rfl rfl
  | paren e => exact .enclose (Expr.part e).chars_eq
  | compare l op r =>
    obtain ⟨hword, htext⟩ := op.between
    exact ((Expr.part l).encloseIf _).joined ((Expr.part r).encloseIf _) _ hword htext
  | between e low high negated =>
    have hoperand := ((Expr.part e).encloseIf e.looserThanComparison).append (.negated negated)
    exact (hoperand.joined ((Expr.part low).encloseIf _) [.keyword .BETWEEN] rfl rfl).joined
      ((Expr.part high).encloseIf _) [.keyword .AND] rfl rfl
  | inList e list negated =>
    have hoperand := ((Expr.part e).encloseIf e.looserThanComparison).append (.negated negated)
    have hlist := Part.enclose (Expr.chars_each (Expr.eachPart list))
    exact hoperand.joined hlist [.keyword .IN] rfl rfl
  | inQuery e q negated =>
    have hoperand := ((Expr.part e).encloseIf e.looserThanComparison).append (.negated negated)
    exact hoperand.joined (.enclose (Query.part q).chars_eq) [.keyword .IN] rfl rfl
  | like e pattern negated =>
    have hoperand := ((Expr.part e).encloseIf e.looserThanComparison).append (.negated negated)
    exact hoperand.joined ((Expr.part pattern).encloseIf _) [.keyword .LIKE] rfl rfl
  | isNull e negated =>
    have hoperand := (Expr.part e).encloseIf e.looserThanComparison
    rw [Expr.tokens, List.append_assoc]
    cases negated with
    | false => exact hoperand.append (.words [.keyword .IS, .keyword .NULL] rfl rfl)
    | true => exact hoperand.append (.words [.keyword .IS, .keyword .NOT, .keyword .NULL] rfl rfl)
  | hasRows q negated =>
    have hquery := Part.enclose (Query.part q).chars_eq
    cases negated with
    | false => exact hquery.lead [.keyword .EXISTS] rfl rfl
    | true => exact hquery.lead [.keyword .NOT, .keyword .EXISTS] rfl rfl
termination_by structural e

theorem Expr.eachPart (es : List Expr) : ∀ e ∈ es, Part e.tokens e.text := by
  cases es with
  | nil => nofun
  | cons e es => exact List.forall_mem_cons.mpr ⟨Expr.part e, Expr.eachPart es⟩
termination_by structural es

theorem Expr.optionalPart (e : Option Expr) : ∀ x ∈ e, Part x.tokens x.text := by
  cases e with
  | none => nofun
  | some e =>
    rintro _ ⟨⟩
    exact Expr.part e
termination_by structural e

theorem SelectItem.part (item : SelectItem) : Part item.tokens item.text := by
  obtain ⟨e, label⟩ := item
  exact (Expr.part e).append (.label label)
termination_by structural item

theorem SelectItem.eachPart (items : List SelectItem) :
    ∀ item ∈ items, Part item.tokens item.text := by
  cases items with
  | nil => nofun
  | cons item items =>
    exact List.forall_mem_cons.mpr ⟨SelectItem.part item, SelectItem.eachPart items⟩
termination_by structural items

theorem JoinCondition.part (c : JoinCondition) : Part c.tokens c.text := by
  cases c with
  | test e => exact (Expr.part e).lead [.keyword .ON] rfl rfl
  | columns names => exact JoinCondition.columns_part names
termination_by structural c

theorem Source.part (s : Source) : Part s.tokens s.text := by
  cases s with
  | table t => exact t.part
  | join l r kind condition =>
    obtain ⟨hwords, htext⟩ := kind.between
    have hsources := (Source.part l).joined (Source.part r) _ hwords htext
    rw [← List.append_assoc] at hsources
    cases condition with
    | none => exact hsources
    | some c =>
      exact hsources.append (.part (JoinCondition.part c) (by cases c <;> nofun))
termination_by structural s

theorem Source.optionalPart (s : Option Source) : ∀ x ∈ s, Part x.tokens x.text := by
  cases s with
  | none => nofun
  | some s =>
    rintro _ ⟨⟩
    exact Source.part s
termination_by structural s

theorem Query.part (q : Query) : Part q.tokens q.text := by
  obtain ⟨items, source, scope, filter, groups, groupFilter, order, limit⟩ := q
  have hitems := (SelectItem.list (SelectItem.eachPart items)).lead [.keyword .SELECT] rfl rfl
  have hsource : Behind (clauseTokens .FROM (source.map Source.tokens))
      (clauseText " FROM " (source.map Source.text)) :=
    .clause (Source.optionalPart source) .FROM rfl
  have hfilter : Behind (clauseTokens .WHERE (filter.map Expr.conditionTokens))
      (clauseText " WHERE " (filter.map Expr.conditionText)) :=
    .clause (fun e he => (Expr.optionalPart filter e he).encloseIf e.isConnective) .WHERE rfl
  have hgroups : Behind (byTokens .GROUP (groups.map ColumnRef.tokens))
      (byText " GROUP BY " (groups.map ColumnRef.text)) :=
    .list (fun c _ => c.part) .GROUP rfl
  have hgroupFilter : Behind (clauseTokens .HAVING (groupFilter.map Expr.conditionTokens))
      (clauseText " HAVING " (groupFilter.map Expr.conditionText)) :=
    .clause (fun e he => (Expr.optionalPart groupFilter e he).encloseIf e.isConnective) .HAVING rfl
  have horder : Behind (byTokens .ORDER (order.map OrderItem.tokens))
      (byText " ORDER BY " (order.map OrderItem.text)) :=
    .list (fun item _ => item.part) .ORDER rfl
  rw [Query.tokens_eq, Query.text_clauses]
  simp only [← List.append_assoc, ← List.cons_append]
  exact ((((((hitems.append hsource).append (.scope scope)).append hfilter).append
    hgroups).append hgroupFilter).append horder).append (.limit limit)
termination_by structural q

end

/-- The canonical text of a query is the layout of its tokens. -/
theorem Query.text_eq (q : Query) : q.text = Layout.text q.tokens := q.part.text_eq

theorem Expr.text_eq (e : Expr) : e.text = Layout.text e.tokens := e.part.text_eq

end QueryCanon
