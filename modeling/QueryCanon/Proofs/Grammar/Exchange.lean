/-
Expressions that can stand for one another.

What the operands of `AND` and `OR` make of the whole, and what parentheses make of what they
enclose, depends on the trees alone.  So where two expressions have one tree, the one can
be put in the place of the other.
-/
import QueryCanon.Proofs.Grammar.Breadth
import QueryCanon.Proofs.Grammar.Completion
import QueryCanon.Proofs.Grammar.Writable

namespace QueryCanon

namespace Expr

/-- `l AND r` for a chain `r` of `AND`, which goes on with the last alternative of `l`. -/
def andBehind (l r : Expr) : Expr :=
  match l with
  | or a b => or a (b.andLeft r)
  | l => l.andLeft r

/-- `l AND r` with neither in parentheses: the `AND` goes to the last alternative of `l` and to
the first of `r`. -/
def andBetween (l : Expr) : Expr → Expr
  | or a b => or (l.andBetween a) b
  | r => l.andBehind r

end Expr

namespace Grammar

variable {n m : Nat} {ts us before after : List Token} {e l r : Expr}

/-! ### Operands of `AND` and `OR` -/

theorem Derives.andBehind (hl : Derives .longest n .disjunction ts l)
    (hr : Derives .longest m .conjunction us r) :
    ∃ k, Derives .longest k .disjunction (ts ++ .keyword .AND :: us) (l.andBehind r) := by
  cases l with
  | or a b =>
    cases hl with
    | conjunction hl => exact absurd hl.fits.1 nofun
    | or ha hb =>
      obtain ⟨k, hd⟩ := hb.andLeft hr
      obtain ⟨k', hwhole⟩ := ha.orOne hd
      exact ⟨k', by simpa [Expr.andBehind] using hwhole⟩
  | _ =>
    cases hl with
    | conjunction hl =>
      obtain ⟨k, hd⟩ := hl.andLeft hr
      exact ⟨k, hd.conjunction⟩

theorem Derives.andBetween {m : Nat} {us : List Token} {r : Expr}
    (hl : Derives .longest n .disjunction ts l) (hr : Derives .longest m .disjunction us r) :
    ∃ k, Derives .longest k .disjunction (ts ++ .keyword .AND :: us) (l.andBetween r) := by
  cases r with
  | or a b =>
    cases hr with
    | conjunction hr => exact absurd hr.fits.1 nofun
    | or ha hb =>
      obtain ⟨k, hd⟩ := Derives.andBetween hl ha
      obtain ⟨k', hwhole⟩ := hd.orOne hb
      exact ⟨k', by simpa [Expr.andBetween] using hwhole⟩
  | _ =>
    cases hr with
    | conjunction hr => exact hl.andBehind hr
termination_by structural r

/-! ### Trees of expressions -/

/-- The tokens are an expression, however deep it nests, and `e` is its tree. -/
def Means (ts : List Token) (e : Expr) : Prop := ∃ n, Derives .longest n .expression ts e

theorem Means.read (h : Means ts e) (hlimit : ts.length ≤ n) :
    (wholeExpression n).read ts = .done e [] :=
  h.elim fun _ hd => wholeExpression_done_iff.mpr ⟨rfl, hd.within_length.mono hlimit⟩

theorem means_of_accepts (h : Accepts wholeExpression ts) : ∃ e, Means ts e := by
  obtain ⟨e, hread⟩ := h
  exact ⟨e, _, (wholeExpression_done_iff.mp hread).2⟩

theorem Means.disjunction (h : Means ts e) : ∃ n, Derives .longest n .disjunction ts e := by
  obtain ⟨n, hd⟩ := h
  cases hd with
  | expression hd => exact ⟨n, hd⟩

theorem Means.paren (h : Means ts e) : Means (enclose ts) (.paren e) :=
  h.elim fun _ hd => ⟨_, hd.paren.operand.comparison.conjunction.expression⟩

/-- A connective, and what it makes of the trees on its two sides. -/
inductive Connects : Token → (Expr → Expr → Expr) → Prop
  | or : Connects (.keyword .OR) .orLeft
  | and : Connects (.keyword .AND) .andBetween

theorem Means.connected {op : Token} {join : Expr → Expr → Expr} (hop : Connects op join)
    (hl : Means ts l) (hr : Means us r) : Means (ts ++ op :: us) (join l r) := by
  obtain ⟨n, hl⟩ := hl.disjunction
  obtain ⟨m, hr⟩ := hr.disjunction
  cases hop with
  | or =>
    obtain ⟨k, hd⟩ := hl.orLeft hr
    exact ⟨k, hd.expression⟩
  | and =>
    obtain ⟨k, hd⟩ := hl.andBetween hr
    exact ⟨k, hd.expression⟩

/-! ### Places -/

/-- Between the two lists an expression may stand: alone, as an operand of `AND` and `OR`, or in
parentheses. -/
inductive Around : List Token → List Token → Prop
  | nothing : Around [] []
  | right {ts before after : List Token} {op : Token} {join : Expr → Expr → Expr} :
    Connects op join → Accepts wholeExpression ts → Around before after →
    Around (ts ++ op :: before) after
  | left {ts before after : List Token} {op : Token} {join : Expr → Expr → Expr} :
    Connects op join → Accepts wholeExpression ts → Around before after →
    Around before (after ++ op :: ts)
  | parens {before after : List Token} :
    Around before after → Around (.leftParen :: before) (after ++ [.rightParen])

/-- What stands around an expression asks for no more of it than its tree, which it gives a place
in the whole. -/
theorem Around.means (h : Around before after) :
    ∃ place : Expr → Expr, ∀ ts e, Means ts e → Means (before ++ ts ++ after) (place e) := by
  induction h with
  | nothing => exact ⟨id, fun ts e hts => by simpa using hts⟩
  | @right _ _ _ _ join hop hother _ ih =>
    obtain ⟨l, hl⟩ := means_of_accepts hother
    obtain ⟨place, hplace⟩ := ih
    exact ⟨fun e => join l (place e),
      fun ts e hts => by simpa using hl.connected hop (hplace ts e hts)⟩
  | @left _ _ _ _ join hop hother _ ih =>
    obtain ⟨place, hplace⟩ := ih
    obtain ⟨r, hr⟩ := means_of_accepts hother
    exact ⟨fun e => join (place e) r,
      fun ts e hts => by simpa using (hplace ts e hts).connected hop hr⟩
  | parens _ ih =>
    obtain ⟨place, hplace⟩ := ih
    exact ⟨fun e => .paren (place e),
      fun ts e hts => by simpa [enclose] using (hplace ts e hts).paren⟩

end Grammar
end QueryCanon
