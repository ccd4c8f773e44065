/-
A parser may be called any number of times.

Between two calls a session is idle: no expression is being read.  An idle session does what
the parser for the tokens that are left does, goes on as far, and is idle again
(`Session.Idle.call_eq`).  So what is true of every call on its own, from any tokens, is true of
every call in a row of calls, whatever came of those before it.
-/
import QueryCanon.Proofs.Grammar.Peak
import QueryCanon.Proofs.Parser.Call

namespace QueryCanon

open Grammar

variable {α : Type} {limit : Nat} {fault : Fault} {c : Call}

/-- A walk from the outermost level meets the limit where the reader with a limit does. -/
theorem Grammar.Capped.walk_eq {r r' : Reader α} (h : Capped limit r r') {ts : List Token}
    {c : Cursor} (hdepth : c.depth = 0) :
    r'.walk limit ts c =
      match r.read (ts.drop c.index) with
      | .done a rest => (.ok a, c.forward ((ts.drop c.index).length - rest.length))
      | .failed fault rest => (c.forward ((ts.drop c.index).length - rest.length)).fail fault := by
  have hts := h (ts.drop c.index)
  have houtermost : (fun d : Descent => decide (limit < c.depth + d.depth)) =
      fun d => decide (limit < d.depth) := by
    funext d
    rw [hdepth, Nat.zero_add]
  unfold CappedAt at hts
  rw [r'.walk_eq]
  cases hfind : (r'.descents (ts.drop c.index)).find? fun d => limit < d.depth with
  | some d =>
    rw [hfind] at hts
    obtain ⟨rest, hread, hlength⟩ := hts
    rw [walked_of_some (houtermost ▸ hfind), hread, ← hlength]
  | none =>
    rw [hfind] at hts
    dsimp only at hts
    rw [hts]
    cases r'.read (ts.drop c.index) with
    | done a rest => rw [walked_of_none (houtermost ▸ hfind)]
    | failed fault rest => rw [walked_of_none (houtermost ▸ hfind)]

namespace Session

variable {s : Session}

/-- Between two calls: no expression is being read, and the place is one of the text. -/
structure Idle (s : Session) : Prop where
  depth : s.cursor.depth = 0
  within : s.cursor.index ≤ s.source.tokens.length

theorem begin_idle (p : Parser) : (begin p).Idle := ⟨rfl, Nat.zero_le _⟩

/-- The place further on at which `left` tokens are left. -/
def skipTo (s : Session) (left : Nat) : Session :=
  { s with cursor := s.cursor.forward (s.rest.tokens.length - left) }

theorem length_rest (s : Session) :
    s.rest.tokens.length = s.source.tokens.length - s.cursor.index := List.length_drop

theorem kinds_rest (s : Session) : s.rest.kinds = s.source.kinds.drop s.cursor.index :=
  List.map_drop

theorem tokenAt?_rest (s : Session) (k : Nat) :
    s.rest.tokenAt? k = s.source.tokenAt? (s.cursor.index + k) := by
  rw [Parser.tokenAt?, kinds_rest, List.getElem?_drop, Parser.tokenAt?]

theorem spanAt_rest (s : Session) (k : Nat) :
    s.rest.spanAt k = s.source.spanAt (s.cursor.index + k) := by
  rw [Parser.spanAt, rest, List.getElem?_drop, Parser.spanAt]

theorem rest_skipTo (s : Session) (n : Nat) : (s.skipTo n).rest = s.rest.skipTo n := by
  simp only [rest, skipTo, Cursor.forward, Parser.skipTo, List.drop_drop]

theorem skipTo_self (s : Session) : s.skipTo s.rest.tokens.length = s := by
  simp [skipTo]

theorem Idle.skipTo (h : s.Idle) (n : Nat) : (s.skipTo n).Idle := by
  refine ⟨h.depth, ?_⟩
  have hwithin := h.within
  have hlength := s.length_rest
  simp only [Session.skipTo, Cursor.forward]
  omega

/-- An error is the same for the whole text and for what is left of it. -/
theorem Idle.report_eq (h : s.Idle) (hopened : ∀ n, fault = .unclosed n → n ≤ s.rest.tokens.length)
    (n : Nat) :
    s.source.report limit ⟨fault, (s.skipTo n).cursor.index⟩ =
      s.rest.locate limit (s.rest.skipTo n) fault := by
  have hindex : (s.skipTo n).cursor.index = s.cursor.index + (s.rest.tokens.length - n) := rfl
  have hnext : (s.rest.skipTo n).next? = s.source.tokenAt? (s.skipTo n).cursor.index := by
    rw [Parser.next?_skipTo, tokenAt?_rest, hindex]
  have hspan : (s.rest.skipTo n).span = s.source.spanAt (s.skipTo n).cursor.index := by
    rw [Parser.span_skipTo, spanAt_rest, hindex]
  cases fault with
  | expected wanted => rw [Parser.report, Parser.locate, hnext, hspan]
  | tooDeep => rw [Parser.report, Parser.locate, hspan]
  | unclosed opened =>
    have hle := hopened opened rfl
    have hlength := s.length_rest
    have hwithin := h.within
    have hplace : s.cursor.index + (s.rest.tokens.length - opened) =
        s.source.tokens.length - opened := by omega
    have hparen : (s.rest.skipTo opened).span =
        s.source.spanAt (s.source.tokens.length - opened) := by
      rw [Parser.span_skipTo, spanAt_rest, hplace]
    rw [Parser.report, Parser.locate, hnext, hspan, hparen]

/-- A reading goes as it does from the tokens that are left. -/
theorem Idle.run_eq (h : s.Idle) {S : Phrases} {r r' : Reader α} (hcapped : Capped limit r r')
    (hviable : Viable [] S r) :
    s.run limit r' =
      ((s.rest.run limit r).1, s.skipTo (s.rest.run limit r).2.tokens.length) := by
  have hlength : (s.source.kinds.drop s.cursor.index).length = s.rest.tokens.length := by
    rw [← kinds_rest, Parser.length_kinds]
  rw [run, hcapped.walk_eq h.depth, hlength, ← kinds_rest]
  cases hread : r.read s.rest.kinds with
  | done a left =>
    have hleft : (s.rest.skipTo left.length).tokens.length = left.length :=
      Parser.length_skipTo (Parser.rest_le hread)
    rw [Parser.run_done hread, hleft]
    rfl
  | failed fault left =>
    have hopened : ∀ n, fault = .unclosed n → n ≤ s.rest.tokens.length := by
      rintro n rfl
      obtain ⟨used, hkinds, -, outer, inner, hused, rfl⟩ := hviable.stops hread nofun
      rw [List.nil_append] at hused
      rw [← Parser.length_kinds, hkinds, hused]
      simp only [List.length_append, List.length_cons]
      omega
    have hleft : (s.rest.skipTo left.length).tokens.length = left.length :=
      Parser.length_skipTo (Parser.rest_le hread)
    rw [Parser.run_failed hread, hleft, ← h.report_eq hopened]
    rfl

/-- A call goes as it does on the tokens that are left. -/
theorem Idle.call_eq (h : s.Idle) (limit : Nat) (c : Call) :
    s.call limit c =
      ((s.rest.call limit c).1, s.skipTo (s.rest.call limit c).2.tokens.length) := by
  have hnext : s.source.tokenAt? s.cursor.index = s.rest.next? := by
    rw [Parser.next?_eq, tokenAt?_rest, Nat.add_zero]
  have hend : s.isAtEnd = s.rest.isAtEnd := by
    rw [isAtEnd, hnext, Parser.next?, Parser.isAtEnd]
    cases s.rest.tokens <;> rfl
  cases c with
  | statement =>
    have hrun := h.run_eq (statement_capped_uncapped limit) (statement_viable limit)
    simp only [call, Parser.call, Session.statement, Parser.statement, hrun]
  | wholeExpression =>
    have hrun := h.run_eq (wholeExpression_capped_uncapped limit) (wholeExpression_viable limit)
    simp only [call, Parser.call, Session.wholeExpression, Parser.wholeExpression, hrun]
  | semicolon =>
    simp only [call, Parser.call, semicolon, Parser.semicolon, hnext]
    cases htokens : s.rest.tokens with
    | nil => simp [Parser.next?, htokens, Session.skipTo]
    | cons t us => split <;> simp [Session.skipTo, htokens]
  | isAtEnd => simp only [call, Parser.call, hend, skipTo_self]
  | endOfInput =>
    have hspan : s.source.spanAt s.cursor.index = s.rest.span := by
      rw [Parser.span_eq, spanAt_rest, Nat.add_zero]
    simp only [call, Parser.call, endOfInput, Parser.endOfInput, hend, hnext, hspan, skipTo_self]

/-! ### Any number of calls -/

theorem Idle.reports {e : SyntaxError} {k : Nat} (h : s.Idle) (hr : s.rest.Reports e k) :
    s.source.Reports e (s.cursor.index + k) := by
  have hlength := s.length_rest
  have hindex := h.within
  have hwithin := hr.within
  refine ⟨by omega, by rw [← tokenAt?_rest]; exact hr.found, ?_⟩
  rcases hr.span with hspan | ⟨i, hi, hparen, hspan⟩
  · exact .inl (by rw [← spanAt_rest]; exact hspan)
  · refine .inr ⟨s.cursor.index + i, by omega, ?_, ?_⟩
    · rw [← tokenAt?_rest]
      exact hparen
    · rw [← spanAt_rest, ← spanAt_rest]
      exact hspan

/-- What a call does to a session. -/
structure Contract (limit : Nat) (s : Session) (c : Call) : Prop where
  source : (s.call limit c).2.source = s.source
  idle : (s.call limit c).2.Idle
  ahead : s.cursor.index ≤ (s.call limit c).2.cursor.index
  stops : ∀ e ∈ (s.call limit c).1.error?, (∀ m, e.problem ≠ .tooDeep m) →
    s.source.Reports e (s.call limit c).2.cursor.index
  progress : c.reads = true → (s.call limit c).1.error? = none →
    s.cursor.index < (s.call limit c).2.cursor.index
  /-- On the tokens that are left a new session does the same. -/
  anew : ((begin s.rest).call limit c).1 = (s.call limit c).1 ∧
    s.cursor.index + ((begin s.rest).call limit c).2.cursor.index =
      (s.call limit c).2.cursor.index
  /-- And so does the parser that keeps nothing else. -/
  rest : s.rest.call limit c = ((s.call limit c).1, (s.call limit c).2.rest)

theorem rest_begin (p : Parser) : (begin p).rest = p := rfl

theorem Idle.contract (h : s.Idle) (limit : Nat) (c : Call) : Contract limit s c := by
  have hcall := h.call_eq limit c
  have hsteps := s.rest.call_steps limit c
  have hanew := (begin_idle s.rest).call_eq limit c
  rw [rest_begin] at hanew
  have hindex : (s.call limit c).2.cursor.index =
      s.cursor.index + (s.rest.tokens.length - (s.rest.call limit c).2.tokens.length) := by
    rw [hcall]
    rfl
  have hahead := hsteps.ahead
  constructor
  case source => rw [hcall]; rfl
  case idle => rw [hcall]; exact h.skipTo _
  case ahead => omega
  case stops =>
    intro e he hdeep
    rw [hindex]
    rw [hcall] at he
    exact h.reports (hsteps.stops e he hdeep)
  case progress =>
    intro hreads hok
    rw [hcall] at hok
    have hless := hsteps.progress hreads hok
    omega
  case anew =>
    rw [hanew, hcall]
    refine ⟨rfl, ?_⟩
    show s.cursor.index + (0 + _) = s.cursor.index + _
    rw [Nat.zero_add]
    rfl
  case rest =>
    rw [hcall]
    dsimp only
    rw [rest_skipTo, ← hsteps.place]

theorem after_idle (h : s.Idle) (limit : Nat) (calls : List Call) :
    (s.after limit calls).Idle ∧ (s.after limit calls).source = s.source := by
  induction calls generalizing s with
  | nil => exact ⟨h, rfl⟩
  | cons c calls ih =>
    have hc := h.contract limit c
    obtain ⟨hidle, hsource⟩ := ih hc.idle
    exact ⟨hidle, hsource.trans hc.source⟩

/-- Whatever calls came before, a call leaves the session idle and no further back, at the
token that it reports if it fails on one, and does what it would do as the first call on the
tokens that are left. -/
theorem calls_contract (limit : Nat) (p : Parser) (calls : List Call) :
    ((begin p).after limit calls).source = p ∧
      ∀ c, Contract limit ((begin p).after limit calls) c := by
  obtain ⟨hidle, hsource⟩ := after_idle (begin_idle p) limit calls
  exact ⟨hsource, hidle.contract limit⟩

/-- `SELECT a; ((b`, with a place for each token. -/
def interrupted : Parser :=
  ⟨[⟨.keyword .SELECT, ⟨0, 6⟩⟩, ⟨.identifier "a", ⟨7, 8⟩⟩, ⟨.semicolon, ⟨8, 9⟩⟩,
    ⟨.leftParen, ⟨10, 11⟩⟩, ⟨.leftParen, ⟨11, 12⟩⟩, ⟨.identifier "b", ⟨12, 13⟩⟩], 13⟩

/-- The statement is read, and so far the expression, two parentheses deep. -/
theorem calls_contract_interrupted :
    (((begin interrupted).call 5 .statement).1.error? = none ∧
      0 < ((begin interrupted).call 5 .statement).2.cursor.index) ∧
    ∃ e, (((begin interrupted).after 5 [.statement, .semicolon]).call 5 .wholeExpression).1.error? =
        some e ∧
      (((begin interrupted).after 5 [.statement, .semicolon]).call 5 .wholeExpression).2.cursor =
        ⟨6, 0⟩ ∧
      interrupted.Reports e 6 := by
  have hread : ((begin interrupted).call 5 .statement).1.error? = none := by decide +kernel
  have herror :
      (((begin interrupted).after 5 [.statement, .semicolon]).call 5 .wholeExpression).1.error? =
        some ⟨.unexpected (.closing 11) none, ⟨11, 13⟩⟩ := by decide +kernel
  have hcursor :
      (((begin interrupted).after 5 [.statement, .semicolon]).call 5 .wholeExpression).2.cursor =
        ⟨6, 0⟩ := by decide +kernel
  obtain ⟨hsource, hcontract⟩ := calls_contract 5 interrupted [.statement, .semicolon]
  refine ⟨⟨hread, ((calls_contract 5 interrupted []).2 .statement).progress rfl hread⟩,
    _, herror, hcursor, ?_⟩
  have hreports := (hcontract .wholeExpression).stops _ herror nofun
  rw [hcursor, hsource] at hreports
  exact hreports

end Session
end QueryCanon
