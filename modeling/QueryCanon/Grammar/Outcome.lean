/-
What reading a list of tokens comes to.

It is told in two ways.  An `Outcome` is about the tokens that are left: a value or a
fault, and what is left then; with it goes the list of descents into nested readers.  A
walk is about a cursor on the whole list, which counts the tokens behind it and the nested
readers that are active.  `walked` says what the second must be if the first is known.
-/
import QueryCanon.Grammar.Wanted

namespace QueryCanon
namespace Grammar

/-- Why a token list is no text of the language.  Where the fault lies, apart from the
place at which reading stopped, is a number of tokens left. -/
inductive Fault where
  | expected (wanted : Wanted)
  /-- the parenthesis opened with `opened` tokens left is not closed here -/
  | unclosed (opened : Nat)
  | tooDeep
deriving DecidableEq, Repr

/-- What reading comes to, with the tokens that are left. -/
inductive Outcome (α : Type) where
  | done (value : α) (rest : List Token)
  | failed (fault : Fault) (rest : List Token)
deriving DecidableEq

namespace Outcome

def rest : Outcome α → List Token
  | done _ rest => rest
  | failed _ rest => rest

def map (f : α → β) : Outcome α → Outcome β
  | done a rest => done (f a) rest
  | failed fault rest => failed fault rest

theorem rest_map (f : α → β) (o : Outcome α) : (o.map f).rest = o.rest := by
  cases o <;> rfl

end Outcome

/-- The entry into a nested reader that is the `depth`-th of those then active, with
`left` tokens left. -/
structure Descent where
  depth : Nat
  left : Nat
deriving DecidableEq, Repr

/-- A place in a token list, by the number of tokens before it, and the number of nested
readers that are active there. -/
structure Cursor where
  index : Nat
  depth : Nat
deriving DecidableEq, Repr

/-- A fault and the place of the token at which it was found. -/
structure PlacedFault where
  fault : Fault
  index : Nat
deriving DecidableEq, Repr

namespace Cursor

def start : Cursor := ⟨0, 0⟩

/-- Past `n` tokens. -/
def forward (c : Cursor) (n : Nat) : Cursor := { c with index := c.index + n }

/-- Finds a fault at the token here. -/
def fail (c : Cursor) (fault : Fault) : Except PlacedFault α × Cursor :=
  (.error ⟨fault, c.index⟩, c)

@[simp]
theorem forward_zero (c : Cursor) : c.forward 0 = c := rfl

theorem forward_forward (c : Cursor) (m n : Nat) :
    (c.forward m).forward n = c.forward (m + n) := by
  simp [forward, Nat.add_assoc]

end Cursor

/-- What a walk from `c` comes to, where `ts` are the tokens left, if reading them descends
as `descents` tell and has the outcome `o`: it ends at the first descent that makes more
than `limit` readers active, or else as the reading does. -/
def walked (limit : Nat) (c : Cursor) (ts : List Token) (descents : List Descent)
    (o : Outcome α) : Except PlacedFault α × Cursor :=
  match descents.find? fun d => limit < c.depth + d.depth with
  | some d => (c.forward (ts.length - d.left)).fail .tooDeep
  | none =>
    match o with
    | .done a rest => (.ok a, c.forward (ts.length - rest.length))
    | .failed fault rest => (c.forward (ts.length - rest.length)).fail fault

/-- A walk from further on ends where the one from `c` does. -/
theorem walked_forward {limit : Nat} {c : Cursor} {ts mid : List Token} {descents : List Descent}
    {o : Outcome α} (hmid : mid <:+ ts) (hwithin : ∀ d ∈ descents, d.left ≤ mid.length)
    (hrest : o.rest <:+ mid) :
    walked limit (c.forward (ts.length - mid.length)) mid descents o =
      walked limit c ts descents o := by
  have hforward : ∀ left, left ≤ mid.length →
      (c.forward (ts.length - mid.length)).forward (mid.length - left) =
        c.forward (ts.length - left) := by
    intro left hleft
    have hlength := hmid.length_le
    rw [Cursor.forward_forward]
    congr 1
    omega
  have hdepth : (c.forward (ts.length - mid.length)).depth = c.depth := rfl
  unfold walked
  rw [hdepth]
  cases hfind : descents.find? fun d => limit < c.depth + d.depth with
  | some d =>
    dsimp only
    rw [hforward _ (hwithin d (List.mem_of_find?_eq_some hfind))]
  | none =>
    cases o with
    | done a rest =>
      dsimp only
      rw [hforward rest.length hrest.length_le]
    | failed fault rest =>
      dsimp only
      rw [hforward rest.length hrest.length_le]

theorem walked_cons {limit : Nat} {c : Cursor} {t : Token} {us : List Token}
    {descents : List Descent} {o : Outcome α} (hwithin : ∀ d ∈ descents, d.left ≤ us.length)
    (hrest : o.rest <:+ us) :
    walked limit (c.forward 1) us descents o = walked limit c (t :: us) descents o := by
  rw [← walked_forward (List.suffix_cons t us) hwithin hrest]
  simp

/-- Where no descent is one too many, a walk ends as the reading does. -/
theorem walked_of_none {limit : Nat} {c : Cursor} {ts : List Token} {descents : List Descent}
    {o : Outcome α} (h : descents.find? (fun d => limit < c.depth + d.depth) = none) :
    walked limit c ts descents o =
      match o with
      | .done a rest => (.ok a, c.forward (ts.length - rest.length))
      | .failed fault rest => (c.forward (ts.length - rest.length)).fail fault := by
  rw [walked.eq_def, h]

/-- The first descent too many ends it. -/
theorem walked_of_some {limit : Nat} {c : Cursor} {ts : List Token} {descents : List Descent}
    {o : Outcome α} {d : Descent}
    (h : descents.find? (fun d => limit < c.depth + d.depth) = some d) :
    walked limit c ts descents o = (c.forward (ts.length - d.left)).fail .tooDeep := by
  rw [walked.eq_def, h]

/-- Descents that are not too many are no matter for what comes after them. -/
theorem walked_append {limit : Nat} {c : Cursor} {ts : List Token} {first more : List Descent}
    {o : Outcome α} (h : first.find? (fun d => limit < c.depth + d.depth) = none) :
    walked limit c ts (first ++ more) o = walked limit c ts more o := by
  unfold walked
  rw [List.find?_append, h, Option.none_or]

theorem walked_map {limit : Nat} {c : Cursor} {ts : List Token} {descents : List Descent}
    {o : Outcome α} (f : α → β) :
    walked limit c ts descents (o.map f) =
      ((walked limit c ts descents o).1.map f, (walked limit c ts descents o).2) := by
  unfold walked
  cases descents.find? fun d => limit < c.depth + d.depth with
  | some d => rfl
  | none => cases o <;> rfl

/-- A walk that succeeds met no descent too many, and read what it gives. -/
theorem of_walked_ok {limit : Nat} {c after : Cursor} {ts : List Token} {descents : List Descent}
    {o : Outcome α} {a : α} (h : walked limit c ts descents o = (.ok a, after)) :
    descents.find? (fun d => limit < c.depth + d.depth) = none ∧
      ∃ rest, o = .done a rest ∧ after = c.forward (ts.length - rest.length) := by
  cases hfind : descents.find? fun d => limit < c.depth + d.depth with
  | some d =>
    rw [walked_of_some hfind] at h
    cases h
  | none =>
    rw [walked_of_none hfind] at h
    cases o with
    | failed fault rest => cases h
    | done b rest =>
      cases h
      exact ⟨rfl, rest, rfl, rfl⟩

/-- A walk that fails met a descent too many, or the fault of the reading. -/
theorem of_walked_error {limit : Nat} {c after : Cursor} {ts : List Token}
    {descents : List Descent} {o : Outcome α} {e : PlacedFault}
    (h : walked limit c ts descents o = (.error e, after)) :
    (∃ d, descents.find? (fun d => limit < c.depth + d.depth) = some d ∧
        after = c.forward (ts.length - d.left) ∧ e = ⟨.tooDeep, after.index⟩) ∨
      (descents.find? (fun d => limit < c.depth + d.depth) = none ∧
        ∃ fault rest, o = .failed fault rest ∧
          after = c.forward (ts.length - rest.length) ∧ e = ⟨fault, after.index⟩) := by
  cases hfind : descents.find? fun d => limit < c.depth + d.depth with
  | some d =>
    rw [walked_of_some hfind] at h
    cases h
    exact .inl ⟨d, rfl, rfl, rfl⟩
  | none =>
    rw [walked_of_none hfind] at h
    cases o with
    | done a rest => cases h
    | failed fault rest =>
      cases h
      exact .inr ⟨rfl, fault, rest, rfl, rfl, rfl⟩

/-- What is left behind a suffix that was reached. -/
theorem drop_forward {c : Cursor} {ts mid : List Token} (h : mid <:+ ts.drop c.index) :
    ts.drop (c.forward ((ts.drop c.index).length - mid.length)).index = mid := by
  rw [Cursor.forward, ← List.drop_drop]
  exact (List.suffix_iff_eq_drop.mp h).symm

end Grammar
end QueryCanon
