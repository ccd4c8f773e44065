/-
Readers: the pieces that the grammar is written with.

A reader takes tokens from the front of a list.  It succeeds with a value or fails with
a fault, and in both cases says which tokens it has left; it never puts a token back
that it did not find there (`suffix`).  A place in the list is named by the number of
tokens that are left there.

Beside its outcome a reader tells how deep it nests: `descents` has one entry for each
time that a nested reader is entered, in the order in which that happens.

And it tells how a cursor goes along a whole list that keeps count of the nested readers:
`walk` counts up where one is entered and down where it is left, and enters none beyond a
limit.  Each piece is defined for the cursor on its own, and shown to come to what its
outcome and its descents say (`walk_eq`).  The laws of a monad hold of all three.
-/
import QueryCanon.Grammar.Outcome

namespace QueryCanon
namespace Grammar

@[ext]
structure Reader (α : Type) where
  read : List Token → Outcome α
  descents : List Token → List Descent
  walk : Nat → List Token → Cursor → Except PlacedFault α × Cursor
  suffix : ∀ ts, (read ts).rest <:+ ts
  within : ∀ ts, ∀ d ∈ descents ts, d.left ≤ ts.length
  walk_eq : ∀ limit ts c, walk limit ts c =
    walked limit c (ts.drop c.index) (descents (ts.drop c.index)) (read (ts.drop c.index))

theorem read_suffix {r : Reader α} {ts rest : List Token} {a : α} (h : r.read ts = .done a rest) :
    rest <:+ ts := by
  have hsuffix := r.suffix ts
  rw [h] at hsuffix
  exact hsuffix

theorem drop_of_getElem? {ts : List α} {i : Nat} {t : α} (h : ts[i]? = some t) :
    ts.drop i = t :: ts.drop (i + 1) := by
  obtain ⟨hlt, rfl⟩ := List.getElem?_eq_some_iff.mp h
  exact List.drop_eq_getElem_cons hlt

namespace Reader

protected def pure (a : α) : Reader α where
  read ts := .done a ts
  descents _ := []
  walk _ _ c := (.ok a, c)
  suffix ts := List.suffix_refl ts
  within _ _ h := nomatch h
  walk_eq _ _ _ := by simp [walked]

/-- First `r`, then what its value calls for. -/
protected def bind (r : Reader α) (f : α → Reader β) : Reader β where
  read ts :=
    match r.read ts with
    | .done a rest => (f a).read rest
    | .failed fault rest => .failed fault rest
  descents ts :=
    r.descents ts ++
      match r.read ts with
      | .done a rest => (f a).descents rest
      | .failed _ _ => []
  walk limit ts c :=
    match r.walk limit ts c with
    | (.ok a, after) => (f a).walk limit ts after
    | (.error e, after) => (.error e, after)
  suffix ts := by
    have h := r.suffix ts
    split
    next a rest hr =>
      rw [hr] at h
      exact ((f a).suffix rest).trans h
    next fault rest hr =>
      rw [hr] at h
      exact h
  within ts := by
    have h := r.suffix ts
    refine List.forall_mem_append.mpr ⟨r.within ts, ?_⟩
    split
    next a rest hr =>
      rw [hr] at h
      exact fun d hd => Nat.le_trans ((f a).within rest d hd) h.length_le
    next fault rest hr => exact fun _ hd => nomatch hd
  walk_eq limit ts c := by
    rw [r.walk_eq]
    cases hfind : (r.descents (ts.drop c.index)).find? fun d => limit < c.depth + d.depth with
    | some d =>
      rw [walked_of_some hfind, walked_of_some ((List.prefix_append _ _).find?_eq_some hfind)]
      rfl
    | none =>
      rw [walked_of_none hfind, walked_append hfind]
      cases hread : r.read (ts.drop c.index) with
      | failed fault rest => rfl
      | done a rest =>
        have h := read_suffix hread
        dsimp only
        rw [(f a).walk_eq, drop_forward h,
          walked_forward h ((f a).within rest) ((f a).suffix rest)]

instance : Monad Reader where
  pure := Reader.pure
  bind := Reader.bind

@[simp]
theorem read_pure (a : α) (ts : List Token) : (pure a : Reader α).read ts = .done a ts := rfl

@[simp]
theorem descents_pure (a : α) (ts : List Token) : (pure a : Reader α).descents ts = [] := rfl

theorem read_bind (r : Reader α) (f : α → Reader β) (ts : List Token) :
    (r >>= f).read ts =
      match r.read ts with
      | .done a rest => (f a).read rest
      | .failed fault rest => .failed fault rest := rfl

theorem walk_bind (r : Reader α) (f : α → Reader β) (limit : Nat) (ts : List Token) (c : Cursor) :
    (r >>= f).walk limit ts c =
      match r.walk limit ts c with
      | (.ok a, after) => (f a).walk limit ts after
      | (.error e, after) => (.error e, after) := rfl

theorem descents_bind (r : Reader α) (f : α → Reader β) (ts : List Token) :
    (r >>= f).descents ts =
      r.descents ts ++
        match r.read ts with
        | .done a rest => (f a).descents rest
        | .failed _ _ => [] := rfl

protected theorem pure_bind (a : α) (f : α → Reader β) : pure a >>= f = f a := by
  ext1
  · rfl
  · funext ts
    simp [descents_bind]
  · rfl

protected theorem bind_pure (r : Reader α) : r >>= pure = r := by
  ext1
  · funext ts
    rw [read_bind]
    cases r.read ts <;> rfl
  · funext ts
    rw [descents_bind]
    cases r.read ts <;> simp
  · funext limit ts c
    rw [walk_bind]
    obtain ⟨_ | _, _⟩ := r.walk limit ts c <;> rfl

protected theorem bind_assoc (r : Reader α) (f : α → Reader β) (g : β → Reader γ) :
    r >>= f >>= g = r >>= fun a => f a >>= g := by
  ext1
  · funext ts
    simp only [read_bind]
    cases r.read ts <;> rfl
  · funext ts
    simp only [read_bind, descents_bind]
    cases r.read ts <;> simp
  · funext limit ts c
    simp only [walk_bind]
    obtain ⟨_ | _, _⟩ := r.walk limit ts c <;> rfl

instance : LawfulMonad Reader :=
  LawfulMonad.mk' Reader (fun r => Reader.bind_pure r) Reader.pure_bind Reader.bind_assoc

def fail (fault : Fault) : Reader α where
  read ts := .failed fault ts
  descents _ := []
  walk _ _ c := c.fail fault
  suffix ts := List.suffix_refl ts
  within _ _ h := nomatch h
  walk_eq _ _ _ := by simp [walked]

/-- The number of tokens left. -/
def place : Reader Nat where
  read ts := .done ts.length ts
  descents _ := []
  walk _ ts c := (.ok (ts.length - c.index), c)
  suffix ts := List.suffix_refl ts
  within _ _ h := nomatch h
  walk_eq _ _ _ := by simp [walked]

/-- Whether no token is left. -/
def atEnd : Reader Bool where
  read ts := .done ts.isEmpty ts
  descents _ := []
  walk _ ts c := (.ok ts[c.index]?.isNone, c)
  suffix ts := List.suffix_refl ts
  within _ _ h := nomatch h
  walk_eq _ ts c := by
    rw [← List.head?_drop]
    cases ts.drop c.index <;> simp [walked]

/-- Takes the tokens of `pattern` if they all come next, and says whether they did. -/
def accept (pattern : List Token) : Reader Bool where
  read ts :=
    if pattern.isPrefixOf ts then .done true (ts.drop pattern.length) else .done false ts
  descents _ := []
  walk _ ts c :=
    if pattern.isPrefixOf (ts.drop c.index) then (.ok true, c.forward pattern.length)
    else (.ok false, c)
  suffix ts := by
    split
    · exact List.drop_suffix _ _
    · exact List.suffix_refl ts
  within _ _ h := nomatch h
  walk_eq _ ts c := by
    by_cases h : pattern.isPrefixOf (ts.drop c.index) = true
    · have hlength := (List.isPrefixOf_iff_prefix.mp h).length_le
      have hforward : (ts.drop c.index).length -
          ((ts.drop c.index).drop pattern.length).length = pattern.length := by
        simp only [List.length_drop] at hlength ⊢
        omega
      rw [if_pos h, if_pos h]
      unfold walked
      dsimp only [List.find?_nil]
      rw [hforward]
    · rw [if_neg h, if_neg h]
      simp [walked]

/-- Takes the next token if `f` has a value for it. -/
def takeIf (f : Token → Option α) : Reader (Option α) where
  read
    | [] => .done none []
    | t :: rest =>
      match f t with
      | some a => .done (some a) rest
      | none => .done none (t :: rest)
  descents _ := []
  walk _ ts c :=
    match ts[c.index]?.bind f with
    | some a => (.ok (some a), c.forward 1)
    | none => (.ok none, c)
  suffix
    | [] => List.suffix_refl []
    | t :: rest => by
      dsimp only
      split
      · exact List.suffix_cons t rest
      · exact List.suffix_refl _
  within _ _ h := nomatch h
  walk_eq _ ts c := by
    rw [← List.head?_drop]
    cases ts.drop c.index with
    | nil => simp [walked]
    | cons t rest => cases h : f t <;> simp [walked, h]

/-- Reads on for as long as `next` has a reader for the token that follows.  Each round
takes that token, so there are no more rounds than tokens. -/
def repeated.read (next : Token → Option (Reader α)) : List Token → Outcome (List α)
  | [] => .done [] []
  | t :: rest =>
    match next t with
    | none => .done [] (t :: rest)
    | some r =>
      match _hr : r.read rest with
      | .done a left => (repeated.read next left).map (a :: ·)
      | .failed fault left => .failed fault left
termination_by ts => ts.length
decreasing_by
  have h := (r.suffix rest).length_le
  rw [_hr] at h
  exact Nat.lt_succ_of_le h

/-- The descents of all rounds, one round after the other. -/
def repeated.descents (next : Token → Option (Reader α)) : List Token → List Descent
  | [] => []
  | t :: rest =>
    match next t with
    | none => []
    | some r =>
      r.descents rest ++
        match _hr : r.read rest with
        | .done _ left => repeated.descents next left
        | .failed _ _ => []
termination_by ts => ts.length
decreasing_by
  have h := (r.suffix rest).length_le
  rw [_hr] at h
  exact Nat.lt_succ_of_le h

theorem repeated.read_cons {next : Token → Option (Reader α)} {t : Token} {us : List Token}
    {r : Reader α} (h : next t = some r) :
    repeated.read next (t :: us) =
      match r.read us with
      | .done a left => (repeated.read next left).map (a :: ·)
      | .failed fault left => .failed fault left := by
  rw [repeated.read, h]
  dsimp only
  split <;> simp only [*]

theorem repeated.descents_cons {next : Token → Option (Reader α)} {t : Token} {us : List Token}
    {r : Reader α} (h : next t = some r) :
    repeated.descents next (t :: us) =
      r.descents us ++
        match r.read us with
        | .done _ left => repeated.descents next left
        | .failed _ _ => [] := by
  rw [repeated.descents, h]
  dsimp only
  congr 1
  split <;> simp only [*]

theorem repeated.rest_suffix (next : Token → Option (Reader α)) (ts : List Token) :
    (repeated.read next ts).rest <:+ ts := by
  fun_induction repeated.read next ts with
  | case1 => exact List.suffix_refl []
  | case2 t rest _ => exact List.suffix_refl _
  | case3 t rest r _ a left hr ih =>
    have h := r.suffix rest
    rw [hr] at h
    rw [Outcome.rest_map]
    exact (ih.trans h).trans (List.suffix_cons t rest)
  | case4 t rest r _ fault left hr =>
    have h := r.suffix rest
    rw [hr] at h
    exact h.trans (List.suffix_cons t rest)

theorem repeated.descents_within (next : Token → Option (Reader α)) (ts : List Token) :
    ∀ d ∈ repeated.descents next ts, d.left ≤ ts.length := by
  fun_induction repeated.descents next ts with
  | case1 => exact fun _ h => nomatch h
  | case2 t rest _ => exact fun _ h => nomatch h
  | case3 t rest r _ ih =>
    refine List.forall_mem_append.mpr
      ⟨fun d hd => Nat.le_succ_of_le (r.within rest d hd), fun d hd => ?_⟩
    split at hd
    next a left hr =>
      exact Nat.le_succ_of_le (Nat.le_trans (ih a left hr d hd) (read_suffix hr).length_le)
    next => exact nomatch hd

/-- A walk leaves the cursor no further back than it was. -/
theorem le_index_walk (r : Reader α) (limit : Nat) (ts : List Token) (c : Cursor) :
    c.index ≤ (r.walk limit ts c).2.index := by
  rw [r.walk_eq]
  unfold walked
  split
  · exact Nat.le_add_right _ _
  · split <;> exact Nat.le_add_right _ _

/-- All rounds, one after the other. -/
def repeated.walk (next : Token → Option (Reader α)) (limit : Nat) (ts : List Token) (c : Cursor) :
    Except PlacedFault (List α) × Cursor :=
  match _ht : ts[c.index]? with
  | none => (.ok [], c)
  | some t =>
    match next t with
    | none => (.ok [], c)
    | some r =>
      match _hr : r.walk limit ts (c.forward 1) with
      | (.ok a, after) =>
        let (more, last) := repeated.walk next limit ts after
        (more.map (a :: ·), last)
      | (.error e, after) => (.error e, after)
termination_by ts.length - c.index
decreasing_by
  have hindex := le_index_walk r limit ts (c.forward 1)
  obtain ⟨hlt, -⟩ := List.getElem?_eq_some_iff.mp _ht
  rw [_hr] at hindex
  simp only [Cursor.forward] at hindex
  omega

theorem repeated.walk_eq_walked (next : Token → Option (Reader α)) (limit : Nat) (ts : List Token)
    (c : Cursor) :
    repeated.walk next limit ts c = walked limit c (ts.drop c.index)
      (repeated.descents next (ts.drop c.index)) (repeated.read next (ts.drop c.index)) := by
  fun_induction repeated.walk next limit ts c with
  | case1 c ht =>
    rw [List.drop_eq_nil_of_le (List.getElem?_eq_none_iff.mp ht), repeated.descents, repeated.read]
    simp [walked]
  | case2 c t ht hn =>
    rw [drop_of_getElem? ht, repeated.descents, repeated.read, hn]
    simp [walked]
  | case3 c t ht r hn a after hr more last hmore ih =>
    have hdrop := drop_of_getElem? ht
    rw [r.walk_eq, walked_cons (t := t) (r.within _) (r.suffix _)] at hr
    obtain ⟨hfind, mid, hread, rfl⟩ := of_walked_ok hr
    have hmid : mid <:+ ts.drop c.index := by
      rw [hdrop]
      exact (read_suffix hread).trans (List.suffix_cons t _)
    have hlength : (t :: ts.drop (c.forward 1).index).length = (ts.drop c.index).length := by
      rw [hdrop]
      rfl
    rw [hmore, hlength, drop_forward hmid, walked_forward hmid (repeated.descents_within next mid)
      (repeated.rest_suffix next mid)] at ih
    rw [hdrop] at ih ⊢
    rw [repeated.descents_cons hn, repeated.read_cons hn]
    dsimp only [Cursor.forward] at hread hfind ⊢
    rw [hread]
    dsimp only
    rw [walked_append hfind, walked_map, ← ih]
  | case4 c t ht r hn e after hr =>
    rw [r.walk_eq, walked_cons (t := t) (r.within _) (r.suffix _)] at hr
    rw [drop_of_getElem? ht, repeated.descents_cons hn, repeated.read_cons hn]
    dsimp only [Cursor.forward] at hr ⊢
    rcases of_walked_error hr with ⟨d, hfind, rfl, rfl⟩ | ⟨hfind, fault, rest, hread, rfl, rfl⟩
    · rw [walked_of_some ((List.prefix_append _ _).find?_eq_some hfind)]
      rfl
    · rw [walked_append hfind, hread]
      rfl

/-- Reads on for as long as `next` has a reader for the token that follows. -/
def repeated (next : Token → Option (Reader α)) : Reader (List α) where
  read := repeated.read next
  descents := repeated.descents next
  walk := repeated.walk next
  suffix := repeated.rest_suffix next
  within := repeated.descents_within next
  walk_eq := repeated.walk_eq_walked next

/-- Enters `r` one level deeper. -/
def nested (r : Reader α) : Reader α where
  read := r.read
  descents ts := ⟨1, ts.length⟩ :: (r.descents ts).map fun d => { d with depth := d.depth + 1 }
  walk limit ts c :=
    if c.depth < limit then
      let (result, after) := r.walk limit ts { c with depth := c.depth + 1 }
      (result, { after with depth := after.depth - 1 })
    else c.fail .tooDeep
  suffix := r.suffix
  within ts := by
    simpa using r.within ts
  walk_eq limit ts c := by
    have hdepth : (fun d : Descent => decide (limit < c.depth + 1 + d.depth)) =
        fun d => decide (limit < c.depth + (d.depth + 1)) := by
      funext d
      congr 2
      omega
    unfold walked
    by_cases h : c.depth < limit
    · have hfirst : ¬ limit < c.depth + 1 := by omega
      rw [if_pos h, r.walk_eq, List.find?_cons_of_neg (by simpa using hfirst), List.find?_map]
      unfold walked
      dsimp only [Function.comp_def]
      rw [hdepth]
      cases (r.descents (ts.drop c.index)).find? fun d => limit < c.depth + (d.depth + 1) with
      | some d => rfl
      | none => cases r.read (ts.drop c.index) <;> rfl
    · have hfirst : limit < c.depth + 1 := by omega
      rw [if_neg h, List.find?_cons_of_pos (by simpa using hfirst)]
      simp

/-- The value that `f` has for the next token. -/
def require (f : Token → Option α) (wanted : Wanted) : Reader α := do
  match ← takeIf f with
  | some a => return a
  | none => fail (.expected wanted)

/-- Goes on as the next token says. -/
def dispatch (next : Token → Option (Reader α)) (wanted : Wanted) : Reader α := do
  match ← takeIf next with
  | some r => r
  | none => fail (.expected wanted)

def expect (t : Token) : Reader Unit := do
  unless ← accept [t] do
    fail (.expected (.token t))

def expectKeyword (k : Keyword) : Reader Unit := do
  unless ← accept [.keyword k] do
    fail (.expected (.keyword k))

def endOfInput : Reader Unit := do
  unless ← atEnd do
    fail (.expected .endOfInput)

/-- One or more items with a comma between each two. -/
def commaList (item : Reader α) : Reader (List α) := do
  let first ← item
  let more ← repeated fun t => if t = .comma then some item else none
  return first :: more

/-- `r` and the parenthesis that closes the one just taken. -/
def enclosed (r : Reader α) : Reader α := do
  let left ← place
  let a ← r
  if ← accept [.rightParen] then
    return a
  else
    fail (.unclosed (left + 1))

/-- `r` between parentheses. -/
def inParens (r : Reader α) : Reader α := do
  expect .leftParen
  enclosed r

/-- `r` if the keyword `k` introduces it. -/
def introduced (k : Keyword) (r : Reader α) : Reader (Option α) := do
  if ← accept [.keyword k] then
    return some (← r)
  else
    return none

end Reader
end Grammar
end QueryCanon
