/-
The text of any expression is a phrase.

`Expr.Writable` asks of an expression only that its parts can be written: names, numbers
and strings that the lexer gives, lists that are not empty, `*` nowhere but as the one
argument of a call, and queries that can be written themselves.  How the parts nest is free.
The tokens of such an expression are a phrase, and its tree is `Expr.reread`
(`Expr.rereads`).
-/
import QueryCanon.Proofs.Grammar.Canonical
import QueryCanon.Proofs.Grammar.Shape
import QueryCanon.Proofs.Lexical.Lexeme
import QueryCanon.Proofs.Query.Reread

namespace QueryCanon

mutual

/-- Whether the parts of an expression can be written; `embedded` says so of its queries. -/
def Expr.Writable (embedded : Query → Prop) : Expr → Prop
  | .star => False
  | .column c => ∀ t ∈ c.tokens, t.IsLexical
  | .literal l => l.token.IsLexical
  | .call name args =>
    (Token.identifier name).IsLexical ∧ (args = [.star] ∨ Expr.EachWritable embedded args)
  | .subquery q => embedded q
  | .and l r => l.Writable embedded ∧ r.Writable embedded
  | .or l r => l.Writable embedded ∧ r.Writable embedded
  | .not e => e.Writable embedded
  | .paren e => e.Writable embedded
  | .compare l _ r => l.Writable embedded ∧ r.Writable embedded
  | .between e low high _ =>
    e.Writable embedded ∧ low.Writable embedded ∧ high.Writable embedded
  | .inList e list _ => e.Writable embedded ∧ list ≠ [] ∧ Expr.EachWritable embedded list
  | .inQuery e q _ => e.Writable embedded ∧ embedded q
  | .like e pattern _ => e.Writable embedded ∧ pattern.Writable embedded
  | .isNull e _ => e.Writable embedded
  | .hasRows q _ => embedded q

def Expr.EachWritable (embedded : Query → Prop) : List Expr → Prop
  | [] => True
  | e :: es => e.Writable embedded ∧ Expr.EachWritable embedded es

end

namespace Grammar

variable {n m : Nat} {ts us vs : List Token} {e l r : Expr} {t : Tail} {q : Query}
  {ending ending' : Ending}

/-- Lexical tokens that are a phrase of the longest reading. -/
structure Reads (s : Symbol) (ts : List Token) (v : s.Value) : Prop where
  lexical : ∀ t ∈ ts, t.IsLexical
  derives : ∃ n, Derives .longest n s ts v

/-! ### Lexical tokens -/

theorem lexical_cons {t : Token} (ht : t.IsLexical) (h : ∀ t ∈ ts, t.IsLexical) :
    ∀ u ∈ t :: ts, u.IsLexical :=
  List.forall_mem_cons.mpr ⟨ht, h⟩

theorem lexical_word (k : Keyword) (h : ∀ t ∈ ts, t.IsLexical) :
    ∀ t ∈ .keyword k :: ts, t.IsLexical :=
  lexical_cons trivial h

theorem lexical_append (h : ∀ t ∈ ts, t.IsLexical) (h' : ∀ t ∈ us, t.IsLexical) :
    ∀ t ∈ ts ++ us, t.IsLexical :=
  List.forall_mem_append.mpr ⟨h, h'⟩

theorem lexical_enclose (h : ∀ t ∈ ts, t.IsLexical) : ∀ t ∈ enclose ts, t.IsLexical :=
  lexical_cons trivial (lexical_append h (List.forall_mem_singleton.mpr trivial))

theorem lexical_negated (negated : Bool) (h : ∀ t ∈ ts, t.IsLexical) :
    ∀ t ∈ notTokens negated ++ ts, t.IsLexical := by
  cases negated with
  | false => exact h
  | true => exact lexical_word .NOT h

/-! ### Chains -/

theorem Derives.andOne (hl : Derives .longest n .conjunction ts l)
    (hr : Derives .longest m (.comparison ending) us r) :
    ∃ k, Derives .longest k .conjunction (ts ++ .keyword .AND :: us) (.and l r) :=
  ⟨_, (hl.mono (Nat.le_succ_of_le (Nat.le_max_left n m))).and (hr.mono (Nat.le_max_right n m))⟩

theorem Derives.orOne (hl : Derives .longest n .disjunction ts l)
    (hr : Derives .longest m .conjunction us r) :
    ∃ k, Derives .longest k .disjunction (ts ++ .keyword .OR :: us) (.or l r) :=
  ⟨_, (hl.mono (Nat.le_succ_of_le (Nat.le_max_left n m))).or (hr.mono (Nat.le_max_right n m))⟩

/-- A chain of `AND` behind another goes on with it. -/
theorem Derives.andLeft {m : Nat} {us : List Token} {r : Expr}
    (hl : Derives .longest n .conjunction ts l) (hr : Derives .longest m .conjunction us r) :
    ∃ k, Derives .longest k .conjunction (ts ++ .keyword .AND :: us) (l.andLeft r) := by
  cases r with
  | and a b =>
    cases hr with
    | comparison hr => exact absurd hr.fits.notConnective nofun
    | and ha hb =>
      obtain ⟨k, hd⟩ := Derives.andLeft hl ha
      obtain ⟨k', hwhole⟩ := hd.andOne hb
      exact ⟨k', by simpa [Expr.andLeft] using hwhole⟩
  | _ =>
    cases hr with
    | comparison hr => exact hl.andOne hr
termination_by structural r

theorem Derives.orLeft {m : Nat} {us : List Token} {r : Expr}
    (hl : Derives .longest n .disjunction ts l) (hr : Derives .longest m .disjunction us r) :
    ∃ k, Derives .longest k .disjunction (ts ++ .keyword .OR :: us) (l.orLeft r) := by
  cases r with
  | or a b =>
    cases hr with
    | conjunction hr => exact absurd hr.fits.1 nofun
    | or ha hb =>
      obtain ⟨k, hd⟩ := Derives.orLeft hl ha
      obtain ⟨k', hwhole⟩ := hd.orOne hb
      exact ⟨k', by simpa [Expr.orLeft] using hwhole⟩
  | _ =>
    cases hr with
    | conjunction hr => exact hl.orOne hr
termination_by structural r

/-! ### Phrases from phrases -/

namespace Reads

theorem expression (h : Reads .disjunction ts e) : Reads .expression ts e :=
  ⟨h.lexical, h.derives.imp fun _ hd => hd.expression⟩

theorem disjunction (h : Reads .conjunction ts e) : Reads .disjunction ts e :=
  ⟨h.lexical, h.derives.imp fun _ hd => hd.conjunction⟩

theorem conjunction (h : Reads (.comparison ending) ts e) : Reads .conjunction ts e :=
  ⟨h.lexical, h.derives.imp fun _ hd => hd.comparison⟩

theorem comparison (h : Reads (.operand ending) ts e) : Reads (.comparison ending) ts e :=
  ⟨h.lexical, h.derives.imp fun _ hd => hd.operand⟩

theorem paren (h : Reads .expression ts e) : Reads (.operand .closed) (enclose ts) (.paren e) :=
  ⟨lexical_enclose h.lexical, h.derives.elim fun _ hd => ⟨_, hd.paren⟩⟩

theorem or (hl : Reads .disjunction ts l) (hr : Reads .disjunction us r) :
    Reads .disjunction (ts ++ .keyword .OR :: us) (l.orLeft r) := by
  obtain ⟨n, hdl⟩ := hl.derives
  obtain ⟨m, hdr⟩ := hr.derives
  exact ⟨lexical_append hl.lexical (lexical_word .OR hr.lexical), hdl.orLeft hdr⟩

theorem and (hl : Reads .conjunction ts l) (hr : Reads .conjunction us r) :
    Reads .conjunction (ts ++ .keyword .AND :: us) (l.andLeft r) := by
  obtain ⟨n, hdl⟩ := hl.derives
  obtain ⟨m, hdr⟩ := hr.derives
  exact ⟨lexical_append hl.lexical (lexical_word .AND hr.lexical), hdl.andLeft hdr⟩

theorem not (h : Reads (.comparison ending) ts e) (hexists : ts.head? ≠ some (.keyword .EXISTS)) :
    Reads (.operand .ajar) (.keyword .NOT :: ts) e.negate :=
  ⟨lexical_word .NOT h.lexical, h.derives.elim fun _ hd => ⟨_, hd.not fun _ => hexists⟩⟩

theorem tail (h : Reads (.comparison .closed) ts l) (ht : Reads (.tail ending) us t) :
    Reads (.comparison ending) (ts ++ us) (t.apply l) := by
  obtain ⟨n, hd⟩ := h.derives
  obtain ⟨m, hdt⟩ := ht.derives
  exact ⟨lexical_append h.lexical ht.lexical, _,
    (hd.mono (Nat.le_max_left n m)).tail (fun _ => rfl) (hdt.mono (Nat.le_max_right n m))⟩

theorem compare {op : Comparison} (h : Reads (.operand ending) us r) :
    Reads (.tail ending) (op.token :: us) (.compare op r) :=
  ⟨lexical_cons (by cases op <;> trivial) h.lexical, h.derives.elim fun _ hd => ⟨_, hd.compare⟩⟩

theorem between {low high : Expr} {negated : Bool} (hlow : Reads (.operand ending) us low)
    (hhigh : Reads (.operand ending') vs high) :
    Reads (.tail ending') (notTokens negated ++ .keyword .BETWEEN :: (us ++ .keyword .AND :: vs))
      (.between low high negated) := by
  obtain ⟨n, hdl⟩ := hlow.derives
  obtain ⟨m, hdh⟩ := hhigh.derives
  have hbounds := lexical_append hlow.lexical (lexical_word .AND hhigh.lexical)
  exact ⟨lexical_negated negated (lexical_word .BETWEEN hbounds), _,
    (hdl.mono (Nat.le_max_left n m)).between (hdh.mono (Nat.le_max_right n m))⟩

theorem inList {list : List Expr} {negated : Bool} (h : Reads (.list .expression) us list) :
    Reads (.tail .closed) (notTokens negated ++ .keyword .IN :: enclose us)
      (.inList list negated) :=
  ⟨lexical_negated negated (lexical_word .IN (lexical_enclose h.lexical)),
    h.derives.elim fun _ hd => ⟨_, hd.inList⟩⟩

theorem inQuery {negated : Bool} (h : Reads .query us q) :
    Reads (.tail .closed) (notTokens negated ++ .keyword .IN :: enclose us) (.inQuery q negated) :=
  ⟨lexical_negated negated (lexical_word .IN (lexical_enclose h.lexical)),
    h.derives.elim fun _ hd => ⟨_, hd.inQuery⟩⟩

theorem like {pattern : Expr} {negated : Bool} (h : Reads (.operand ending) us pattern) :
    Reads (.tail ending) (notTokens negated ++ .keyword .LIKE :: us) (.like pattern negated) :=
  ⟨lexical_negated negated (lexical_word .LIKE h.lexical),
    h.derives.elim fun _ hd => ⟨_, hd.like⟩⟩

theorem isNull (negated : Bool) :
    Reads (.tail .closed) (.keyword .IS :: (notTokens negated ++ [.keyword .NULL]))
      (.isNull negated) := by
  have hword : ∀ t ∈ [Token.keyword .NULL], t.IsLexical := List.forall_mem_singleton.mpr trivial
  exact ⟨lexical_word .IS (lexical_negated negated hword), 1, .isNull negated⟩

theorem call {name : String} {args : List Expr} (hname : (Token.identifier name).IsLexical)
    (h : Reads .arguments us args) :
    Reads (.operand .closed) (.identifier name :: enclose us) (.call name args) :=
  ⟨lexical_cons hname (lexical_enclose h.lexical), h.derives.elim fun _ hd => ⟨_, hd.call⟩⟩

theorem subquery (h : Reads .query ts q) : Reads (.operand .closed) (enclose ts) (.subquery q) :=
  ⟨lexical_enclose h.lexical, h.derives.elim fun _ hd => ⟨_, hd.subquery⟩⟩

theorem hasRows (h : Reads .query ts q) :
    Reads (.operand .closed) (.keyword .EXISTS :: enclose ts) (.hasRows q false) :=
  ⟨lexical_word .EXISTS (lexical_enclose h.lexical), h.derives.elim fun _ hd => ⟨_, hd.hasRows⟩⟩

theorem hasNoRows (h : Reads .query ts q) :
    Reads (.operand .closed) (.keyword .NOT :: .keyword .EXISTS :: enclose ts) (.hasRows q true) :=
  ⟨lexical_word .NOT (lexical_word .EXISTS (lexical_enclose h.lexical)),
    h.derives.elim fun _ hd => ⟨_, hd.hasNoRows⟩⟩

theorem list {es : List Expr} (hne : es ≠ [])
    (hes : ∀ e ∈ es, Reads .disjunction e.tokens e.reread) :
    Reads (.list .expression) (commaSeparated (Expr.eachTokens es)) (Expr.eachReread es) := by
  induction es with
  | nil => exact absurd rfl hne
  | cons e es ih =>
    obtain ⟨he, hmore⟩ := List.forall_mem_cons.mp hes
    obtain ⟨n, hd⟩ := he.expression.derives
    cases es with
    | nil => exact ⟨by simpa [Expr.eachTokens] using he.lexical, n, by
        simpa [Expr.eachTokens, Expr.eachReread] using hd.one⟩
    | cons e' es =>
      have hlist := ih (List.cons_ne_nil e' es) hmore
      obtain ⟨m, hds⟩ := hlist.derives
      have htokens : commaSeparated (Expr.eachTokens (e :: e' :: es)) =
          e.tokens ++ .comma :: commaSeparated (Expr.eachTokens (e' :: es)) :=
        commaSeparated_cons_cons _ _ _
      rw [htokens]
      exact ⟨lexical_append he.lexical (lexical_cons trivial hlist.lexical), _,
        (hd.mono (Nat.le_max_left n m)).more (hds.mono (Nat.le_max_right n m))⟩

end Reads

/-! ### Tails -/

/-- What the tokens of a tail are read as. -/
def Tail.reread : Tail → Tail
  | compare op r => compare op (.parenIf r.looserThanOperand r.reread)
  | between low high negated =>
    between (.parenIf low.looserThanOperand low.reread)
      (.parenIf high.looserThanOperand high.reread) negated
  | inList list negated => inList (Expr.eachReread list) negated
  | inQuery q negated => inQuery q.wrapped negated
  | like pattern negated => like (.parenIf pattern.looserThanOperand pattern.reread) negated
  | isNull negated => isNull negated

theorem Tail.reread_apply (t : Tail) (l : Expr) :
    (t.apply l).reread = t.reread.apply (.parenIf l.looserThanComparison l.reread) := by
  cases t <;> rfl

theorem Tail.negateFirst_apply (t : Tail) (l : Expr) :
    (t.apply l).negateFirst = t.apply l.negateFirst := by
  cases t <;> rfl

theorem Tail.beginsWithRowTest_apply (t : Tail) (l : Expr) :
    (t.apply l).beginsWithRowTest = l.beginsWithRowTest := by
  cases t <;> rfl

/-- Only what begins with an `EXISTS` is written with it first. -/
theorem Tail.head?_apply (t : Tail)
    (hl : l.looserThanComparison = false → l.tokens.head? ≠ some (.keyword .EXISTS)) :
    (t.apply l).tokens.head? ≠ some (.keyword .EXISTS) := by
  rw [tokens_apply, List.head?_append]
  cases hloose : l.looserThanComparison with
  | true => simp [encloseIf, enclose]
  | false =>
    intro h
    rcases Option.or_eq_some_iff.mp h with h | ⟨-, h⟩
    · exact hl hloose h
    · exact t.head?_tokens_ne h

theorem notConnective_of_tighter (h : e.looserThanComparison = false) :
    e.isConnective = false := by
  cases e <;> first | rfl | cases h

theorem head?_tokens_ne {e : Expr} (hconnective : e.isConnective = false)
    (hfirst : e.beginsWithRowTest = false) : e.tokens.head? ≠ some (.keyword .EXISTS) := by
  cases e with
  | star => exact nofun
  | column c => obtain ⟨_ | qualifier, name⟩ := c <;> exact nofun
  | literal l =>
    intro h
    have hd := denotes_token l
    rw [Expr.tokens, List.head?_cons, Option.some.injEq] at h
    rw [h] at hd
    cases hd
  | call name args => exact nofun
  | subquery q => exact nofun
  | and => cases hconnective
  | or => cases hconnective
  | not e => exact nofun
  | paren e => exact nofun
  | compare l op r =>
    exact Tail.head?_apply (.compare op r) fun h =>
      head?_tokens_ne (notConnective_of_tighter h) hfirst
  | between e low high negated =>
    exact Tail.head?_apply (.between low high negated) fun h =>
      head?_tokens_ne (notConnective_of_tighter h) hfirst
  | inList e list negated =>
    exact Tail.head?_apply (.inList list negated) fun h =>
      head?_tokens_ne (notConnective_of_tighter h) hfirst
  | inQuery e q negated =>
    exact Tail.head?_apply (.inQuery q negated) fun h =>
      head?_tokens_ne (notConnective_of_tighter h) hfirst
  | like e pattern negated =>
    exact Tail.head?_apply (.like pattern negated) fun h =>
      head?_tokens_ne (notConnective_of_tighter h) hfirst
  | isNull e negated =>
    exact Tail.head?_apply (.isNull negated) fun h =>
      head?_tokens_ne (notConnective_of_tighter h) hfirst
  | hasRows q negated =>
    cases negated with
    | false => cases hfirst
    | true => exact nofun
termination_by structural e

/-! ### Expressions -/

/-- The phrases that the tokens of an expression are, by how tightly it binds. -/
structure Rereads (e : Expr) : Prop where
  whole : Reads .disjunction e.tokens e.reread
  conjunction : e.looserThanAnd = false → Reads .conjunction e.tokens e.reread
  comparison : e.isConnective = false →
    ∃ ending, (e.looserThanComparison = false → ending = .closed) ∧
      Reads (.comparison ending) e.tokens e.reread
  operand : e.looserThanOperand = false → Reads (.operand .closed) e.tokens e.reread
  /-- A `NOT` right before the tokens goes to their first `EXISTS`. -/
  absence : e.beginsWithRowTest = true →
    Reads (.comparison .closed) (.keyword .NOT :: e.tokens) e.reread.negateFirst

theorem rereads_comparison (e : Expr) (h : Reads (.comparison ending) e.tokens e.reread)
    (hending : e.looserThanComparison = false → ending = .closed)
    (hoperand : e.looserThanOperand = false → Reads (.operand .closed) e.tokens e.reread)
    (habsence : e.beginsWithRowTest = true →
      Reads (.comparison .closed) (.keyword .NOT :: e.tokens) e.reread.negateFirst) :
    Rereads e where
  whole := h.conjunction.disjunction
  conjunction _ := h.conjunction
  comparison _ := ⟨ending, hending, h⟩
  operand := hoperand
  absence := habsence

/-- What begins with no `EXISTS` that a `NOT` before it could go to. -/
theorem rereads_operand (e : Expr) (h : Reads (.operand .closed) e.tokens e.reread)
    (hfirst : e.beginsWithRowTest = false) : Rereads e :=
  rereads_comparison e h.comparison (fun _ => rfl) (fun _ => h) fun h' => by
    rw [hfirst] at h'
    cases h'

namespace Rereads

variable (h : Rereads e)
include h

/-- An operand of an `AND`. -/
theorem underAnd :
    Reads .conjunction (encloseIf e.looserThanAnd e.tokens)
      (.parenIf e.looserThanAnd e.reread) := by
  cases hloose : e.looserThanAnd with
  | false => exact h.conjunction hloose
  | true => exact h.whole.expression.paren.comparison.conjunction

/-- What stands before a tail. -/
theorem left :
    Reads (.comparison .closed) (encloseIf e.looserThanComparison e.tokens)
      (.parenIf e.looserThanComparison e.reread) := by
  cases hloose : e.looserThanComparison with
  | false =>
    obtain ⟨ending, hending, hreads⟩ := h.comparison (notConnective_of_tighter hloose)
    rw [hending hloose] at hreads
    exact hreads
  | true => exact h.whole.expression.paren.comparison

/-- What a comparison, a `BETWEEN` or a `LIKE` has on its right. -/
theorem right :
    Reads (.operand .closed) (encloseIf e.looserThanOperand e.tokens)
      (.parenIf e.looserThanOperand e.reread) := by
  cases hloose : e.looserThanOperand with
  | false => exact h.operand hloose
  | true => exact h.whole.expression.paren

theorem apply (t : Tail) (ht : Reads (.tail .closed) t.tokens t.reread) : Rereads (t.apply e) := by
  have hloose : (t.apply e).looserThanOperand = true := by cases t <;> rfl
  have hwhole := h.left.tail ht
  rw [← Tail.tokens_apply, ← Tail.reread_apply] at hwhole
  refine rereads_comparison _ hwhole (fun _ => rfl) (fun htight => ?_) fun hfirst => ?_
  · rw [hloose] at htight
    cases htight
  · rw [Tail.beginsWithRowTest_apply] at hfirst
    have htight := (Expr.tight_of_beginsWithRowTest hfirst).1
    have habsence := (h.absence hfirst).tail ht
    rw [Tail.tokens_apply, Tail.reread_apply, Tail.negateFirst_apply, htight]
    exact habsence

/-- What a `NOT` stands before, and does not go into. -/
theorem underNot (hfirst : e.beginsWithRowTest = false) :
    ∃ ending, Reads (.comparison ending) (encloseIf e.isConnective e.tokens)
        (.parenIf e.isConnective e.reread) ∧
      (encloseIf e.isConnective e.tokens).head? ≠ some (.keyword .EXISTS) := by
  cases hconnective : e.isConnective with
  | false =>
    obtain ⟨ending, -, hreads⟩ := h.comparison hconnective
    exact ⟨ending, hreads, head?_tokens_ne hconnective hfirst⟩
  | true => exact ⟨.closed, h.whole.expression.paren.comparison, nofun⟩

theorem not : Rereads (.not e) := by
  have hwhole : ∃ ending, Reads (.comparison ending) (Expr.not e).tokens (Expr.not e).reread := by
    rw [Expr.tokens, Expr.reread]
    cases hfirst : e.beginsWithRowTest with
    | true =>
      rw [(Expr.tight_of_beginsWithRowTest hfirst).2]
      exact ⟨.closed, h.absence hfirst⟩
    | false =>
      obtain ⟨ending, hreads, hhead⟩ := h.underNot hfirst
      exact ⟨.ajar, (hreads.not hhead).comparison⟩
  obtain ⟨ending, hreads⟩ := hwhole
  exact rereads_comparison _ hreads nofun nofun nofun

end Rereads

theorem Rereads.and (hl : Rereads l) (hr : Rereads r) : Rereads (.and l r) := by
  have hwhole : Reads .conjunction (Expr.and l r).tokens (Expr.and l r).reread :=
    hl.underAnd.and hr.underAnd
  exact ⟨hwhole.disjunction, fun _ => hwhole, nofun, nofun, nofun⟩

theorem Rereads.or (hl : Rereads l) (hr : Rereads r) : Rereads (.or l r) :=
  ⟨hl.whole.or hr.whole, nofun, nofun, nofun, nofun⟩

theorem rereads_hasRows {negated : Bool} (h : Reads .query q.tokens q.wrapped) :
    Rereads (.hasRows q negated) := by
  cases negated with
  | true => exact rereads_operand (.hasRows q true) h.hasNoRows rfl
  | false =>
    exact rereads_comparison (.hasRows q false) h.hasRows.comparison (fun _ => rfl)
      (fun _ => h.hasRows) fun _ => h.hasNoRows.comparison

theorem rereads_column {c : ColumnRef} (h : ∀ t ∈ c.tokens, t.IsLexical) : Rereads (.column c) :=
  rereads_operand _ ⟨h, 1, .column⟩ rfl

theorem rereads_literal {l : Literal} (h : l.token.IsLexical) : Rereads (.literal l) :=
  rereads_operand _ ⟨List.forall_mem_singleton.mpr h, 1, .literal (denotes_token l)⟩ rfl

/-- The arguments of a call: none, `*`, or expressions. -/
theorem reads_arguments {args : List Expr} (h : ∀ arg ∈ args, Rereads arg) :
    Reads .arguments (commaSeparated (Expr.eachTokens args)) (Expr.eachReread args) := by
  by_cases hne : args = []
  · rw [hne]
    exact ⟨nofun, 0, .noArguments⟩
  · have hlist := Reads.list hne fun arg harg => (h arg harg).whole
    exact ⟨hlist.lexical, hlist.derives.imp fun _ hd => hd.arguments⟩

theorem rereads_call {name : String} {args : List Expr} (hname : (Token.identifier name).IsLexical)
    (hargs : args = [.star] ∨ ∀ arg ∈ args, Rereads arg) : Rereads (.call name args) := by
  have hreads :
      Reads .arguments (commaSeparated (Expr.eachTokens args)) (Expr.eachReread args) := by
    rcases hargs with rfl | hargs
    · exact ⟨List.forall_mem_singleton.mpr trivial, 0, .starArgument⟩
    · exact reads_arguments hargs
  exact rereads_operand (.call name args) (hreads.call hname) rfl

end Grammar

open Grammar

mutual

theorem Expr.rereads {embedded : Query → Prop}
    (hembedded : ∀ q, embedded q → Reads .query q.tokens q.wrapped) (e : Expr)
    (h : e.Writable embedded) : Rereads e := by
  cases e with
  | star => exact h.elim
  | column c => exact rereads_column h
  | literal l => exact rereads_literal h
  | call name args =>
    exact rereads_call h.1 (h.2.imp_right (Expr.eachRereads hembedded args))
  | subquery q => exact rereads_operand (.subquery q) (hembedded q h).subquery rfl
  | and l r => exact (Expr.rereads hembedded l h.1).and (Expr.rereads hembedded r h.2)
  | or l r => exact (Expr.rereads hembedded l h.1).or (Expr.rereads hembedded r h.2)
  | not e => exact (Expr.rereads hembedded e h).not
  | paren e =>
    exact rereads_operand (.paren e) (Expr.rereads hembedded e h).whole.expression.paren rfl
  | compare l op r =>
    have hright := (Expr.rereads hembedded r h.2).right
    exact (Expr.rereads hembedded l h.1).apply (.compare op r) hright.compare
  | between e low high negated =>
    have hlow := (Expr.rereads hembedded low h.2.1).right
    have hhigh := (Expr.rereads hembedded high h.2.2).right
    exact (Expr.rereads hembedded e h.1).apply (.between low high negated) (hlow.between hhigh)
  | inList e list negated =>
    have hlist := Reads.list h.2.1 fun e he => (Expr.eachRereads hembedded list h.2.2 e he).whole
    exact (Expr.rereads hembedded e h.1).apply (.inList list negated) hlist.inList
  | inQuery e q negated =>
    exact (Expr.rereads hembedded e h.1).apply (.inQuery q negated) (hembedded q h.2).inQuery
  | like e pattern negated =>
    have hpattern := (Expr.rereads hembedded pattern h.2).right
    exact (Expr.rereads hembedded e h.1).apply (.like pattern negated) hpattern.like
  | isNull e negated =>
    exact (Expr.rereads hembedded e h).apply (.isNull negated) (.isNull negated)
  | hasRows q negated => exact rereads_hasRows (hembedded q h)
termination_by structural e

theorem Expr.eachRereads {embedded : Query → Prop}
    (hembedded : ∀ q, embedded q → Reads .query q.tokens q.wrapped) (es : List Expr)
    (h : Expr.EachWritable embedded es) : ∀ e ∈ es, Rereads e := by
  cases es with
  | nil => exact nofun
  | cons e es =>
    exact List.forall_mem_cons.mpr
      ⟨Expr.rereads hembedded e h.1, Expr.eachRereads hembedded es h.2⟩
termination_by structural es

end

end QueryCanon
