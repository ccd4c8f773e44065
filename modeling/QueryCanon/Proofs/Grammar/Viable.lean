/-
Readers that take no token in vain.

A reader is viable for a set of token lists if it takes one of them, or what it has taken
when it fails is the beginning of one of them.  So the token at which it fails is the first
that cannot go on with what stands before it.  Readers that are put together from viable
ones are viable for what is put together from their sets.
-/
import QueryCanon.Proofs.Grammar.Failing
import QueryCanon.Proofs.Lexical.Lexeme
import QueryCanon.Proofs.Query.Clauses

namespace QueryCanon
namespace Grammar

open Reader

variable {α β : Type} {ts us used rest before : List Token} {fault : Fault}

/-- If the fault is that a parenthesis is not closed, it is one of those in `used`, behind
which `rest` is left. -/
def Fault.Among (used rest : List Token) : Fault → Prop
  | .unclosed opened =>
    ∃ outer inner, used = outer ++ .leftParen :: inner ∧ opened = (inner ++ rest).length + 1
  | _ => True

theorem Fault.Among.behind (h : fault.Among used rest) (before : List Token) :
    fault.Among (before ++ used) rest := by
  cases fault with
  | unclosed opened =>
    obtain ⟨outer, inner, rfl, hopened⟩ := h
    exact ⟨before ++ outer, inner, by simp, hopened⟩
  | expected wanted => trivial
  | tooDeep => trivial

/-- A set of token lists. -/
@[reducible]
def Phrases := List Token → Prop

namespace Phrases

variable {S T U : Phrases}

/-- Some phrase of `S` begins with `ts`, and what is missing of it can be written. -/
def BegunBy (S : Phrases) (ts : List Token) : Prop :=
  ∃ more, S (ts ++ more) ∧ ∀ t ∈ more, t.IsLexical

theorem BegunBy.of (h : S ts) : S.BegunBy ts := ⟨[], by rwa [List.append_nil], nofun⟩

/-- A phrase that can be written is begun by nothing. -/
theorem BegunBy.nil (h : S ts) (hts : ∀ t ∈ ts, t.IsLexical) : S.BegunBy [] := ⟨ts, h, hts⟩

theorem BegunBy.mono (h : S.BegunBy ts) (hST : ∀ ts, S ts → T ts) : T.BegunBy ts := by
  obtain ⟨more, hS, hmore⟩ := h
  exact ⟨more, hST _ hS, hmore⟩

theorem BegunBy.behind (h : S.BegunBy ts) (hST : ∀ ts, S ts → T (before ++ ts)) :
    T.BegunBy (before ++ ts) := by
  obtain ⟨more, hS, hmore⟩ := h
  exact ⟨more, by rw [List.append_assoc]; exact hST _ hS, hmore⟩

/-- A second phrase behind the first, where the first has only begun. -/
theorem BegunBy.followed (h : S.BegunBy ts) (hT : T.BegunBy [])
    (hU : ∀ us vs, S us → T vs → U (us ++ vs)) : U.BegunBy ts := by
  obtain ⟨more, hS, hmore⟩ := h
  obtain ⟨vs, hvs, hlexical⟩ := hT
  exact ⟨more ++ vs, by rw [← List.append_assoc]; exact hU _ _ hS hvs,
    List.forall_mem_append.mpr ⟨hmore, hlexical⟩⟩

end Phrases

/-- A phrase of `S` and a phrase of `T` behind it. -/
def Phrases.then (S T : Phrases) : Phrases := fun ts => ∃ us vs, ts = us ++ vs ∧ S us ∧ T vs

theorem Phrases.then_nil {S T : Phrases} (hS : S []) (hT : T []) : (S.then T) [] :=
  ⟨[], [], rfl, hS, hT⟩

/-- Behind `before`, the reader takes what makes a phrase of `S`, or fails where what it has
taken begins one.  That the limit on nesting is met says nothing about the tokens. -/
structure Viable (before : List Token) (S : Phrases) (r : Reader α) : Prop where
  takes : ∀ {ts a rest}, r.read ts = .done a rest → ∃ used, ts = used ++ rest ∧ S (before ++ used)
  stops : ∀ {ts fault rest}, r.read ts = .failed fault rest → fault ≠ .tooDeep →
    ∃ used, ts = used ++ rest ∧ S.BegunBy (before ++ used) ∧ fault.Among (before ++ used) rest

/-- A keyword alone. -/
def Word (k : Keyword) : Phrases := fun ts => ts = [.keyword k]

theorem word_begun (k : Keyword) : (Word k).BegunBy [] :=
  .nil rfl (List.forall_mem_singleton.mpr trivial)

/-- The spellings of the values of a type. -/
def SpellingOf (g : α → List Token) : Phrases := fun ts => ∃ a, ts = g a

namespace Viable

variable {S T U : Phrases} {r : Reader α} {f : α → Reader β} {t : Token}

theorem mono (h : Viable before S r) (hST : ∀ ts, S ts → T ts) : Viable before T r where
  takes hread := by
    obtain ⟨used, hts, hS⟩ := h.takes hread
    exact ⟨used, hts, hST _ hS⟩
  stops hread hdeep := by
    obtain ⟨used, hts, hbegun, hamong⟩ := h.stops hread hdeep
    exact ⟨used, hts, hbegun.mono hST, hamong⟩

/-- What is viable is so behind more tokens. -/
theorem further {outer : List Token} (h : Viable before S r)
    (hST : ∀ ts, S ts → T (outer ++ ts)) : Viable (outer ++ before) T r where
  takes hread := by
    obtain ⟨used, hts, hS⟩ := h.takes hread
    exact ⟨used, hts, by simpa using hST _ hS⟩
  stops hread hdeep := by
    obtain ⟨used, hts, hbegun, hamong⟩ := h.stops hread hdeep
    exact ⟨used, hts, by simpa using hbegun.behind hST, by simpa using hamong.behind outer⟩

theorem behind (h : Viable [] S r) (hST : ∀ ts, S ts → T (before ++ ts)) : Viable before T r := by
  simpa using h.further hST

theorem pure {a : α} (h : S before) : Viable before S (Pure.pure a) where
  takes hread := by
    cases hread
    exact ⟨[], rfl, by simpa using h⟩
  stops hread := nomatch hread

/-- A fault at the token that comes next. -/
theorem fail {wanted : Wanted} (h : S.BegunBy before) :
    Viable before S (fail (.expected wanted) : Reader α) where
  takes hread := absurd hread fail_not_done
  stops hread _ := by
    obtain ⟨rfl, rfl⟩ := fail_failed.mp hread
    exact ⟨[], rfl, by simpa using h, trivial⟩

/-- One after the other.  The second is put to use with the values of the first only. -/
theorem bind_of (hr : Viable before S r)
    (hf : ∀ a, (∃ ts rest, r.read ts = .done a rest) → Viable [] T (f a)) (hT : T.BegunBy [])
    (hU : ∀ us vs, S us → T vs → U (us ++ vs)) : Viable before U (r >>= f) where
  takes hread := by
    obtain ⟨a, mid, hfirst, hmore⟩ := bind_done.mp hread
    obtain ⟨us, rfl, hS⟩ := hr.takes hfirst
    obtain ⟨vs, rfl, hT⟩ := (hf a ⟨_, _, hfirst⟩).takes hmore
    exact ⟨us ++ vs, by simp, by simpa using hU _ _ hS hT⟩
  stops hread hdeep := by
    rcases bind_failed.mp hread with hfirst | ⟨a, mid, hfirst, hmore⟩
    · obtain ⟨us, hts, hbegun, hamong⟩ := hr.stops hfirst hdeep
      exact ⟨us, hts, hbegun.followed hT hU, hamong⟩
    · obtain ⟨us, rfl, hS⟩ := hr.takes hfirst
      obtain ⟨vs, rfl, hbegun, hamong⟩ := (hf a ⟨_, _, hfirst⟩).stops hmore hdeep
      have hboth : U.BegunBy (before ++ us ++ vs) := hbegun.behind fun _ hvs => hU _ _ hS hvs
      exact ⟨us ++ vs, by simp, by simpa using hboth, by simpa using hamong.behind (before ++ us)⟩

theorem bind (hr : Viable before S r) (hf : ∀ a, Viable [] T (f a)) (hT : T.BegunBy [])
    (hU : ∀ us vs, S us → T vs → U (us ++ vs)) : Viable before U (r >>= f) :=
  hr.bind_of (fun a _ => hf a) hT hU

theorem bind_then (hr : Viable before S r) (hT : T []) (hf : ∀ a, Viable [] T (f a)) :
    Viable before (S.then T) (r >>= f) :=
  hr.bind hf (.of hT) fun us vs hS hT => ⟨us, vs, rfl, hS, hT⟩

theorem map (hr : Viable before S r) (g : α → β) :
    Viable before S (r >>= fun a => Pure.pure (g a)) :=
  hr.bind (T := fun ts => ts = []) (fun _ => .pure rfl) (.of rfl) fun us vs hS hvs => by
    simpa [hvs] using hS

/-- With a pattern or without it. -/
theorem accept {pattern : List Token} {x y : Reader α} (hx : Viable (before ++ pattern) S x)
    (hy : Viable before S y) :
    Viable before S (accept pattern >>= fun b => if b = true then x else y) where
  takes {ts _ _} hread := by
    rcases accept_bind_cases pattern (fun b => if b = true then x else y) ts with
      ⟨us, rfl, heq⟩ | heq
    · obtain ⟨used, rfl, hS⟩ := hx.takes (heq.symm.trans hread)
      exact ⟨pattern ++ used, by simp, by simpa using hS⟩
    · exact hy.takes (heq.symm.trans hread)
  stops {ts _ _} hread hdeep := by
    rcases accept_bind_cases pattern (fun b => if b = true then x else y) ts with
      ⟨us, rfl, heq⟩ | heq
    · obtain ⟨used, rfl, hbegun, hamong⟩ := hx.stops (heq.symm.trans hread) hdeep
      exact ⟨pattern ++ used, by simp, by simpa using hbegun, by simpa using hamong⟩
    · exact hy.stops (heq.symm.trans hread) hdeep

/-- With a token, or with something that does not begin with it. -/
theorem acceptElse {x y : Reader α} (hx : Viable (before ++ [t]) S x) (hy : Viable [] T y)
    (hT : ∀ ts, T ts → ts.head? ≠ some t → S (before ++ ts)) (hbefore : S.BegunBy before) :
    Viable before S (Reader.accept [t] >>= fun b => if b = true then x else y) where
  takes hread := by
    rcases accept_bind_done.mp hread with ⟨us, rfl, hx'⟩ | ⟨hhead, hy'⟩
    · obtain ⟨used, rfl, hS⟩ := hx.takes hx'
      exact ⟨t :: used, rfl, by simpa using hS⟩
    · obtain ⟨used, rfl, hused⟩ := hy.takes hy'
      refine ⟨used, rfl, hT _ hused ?_⟩
      cases used with
      | nil => nofun
      | cons u used => exact hhead
  stops hread hdeep := by
    rcases accept_bind_failed.mp hread with ⟨us, rfl, hx'⟩ | ⟨hhead, hy'⟩
    · obtain ⟨used, rfl, hbegun, hamong⟩ := hx.stops hx' hdeep
      exact ⟨t :: used, rfl, by simpa using hbegun, by simpa using hamong⟩
    · obtain ⟨used, rfl, ⟨more, hused, hmore⟩, hamong⟩ := hy.stops hy' hdeep
      refine ⟨used, rfl, ?_, hamong.behind before⟩
      cases used with
      | nil => rwa [List.append_nil]
      | cons u used => exact ⟨more, by simpa using hT _ hused hhead, hmore⟩

theorem accepted {pattern : List Token} (h : S before) (hpattern : S (before ++ pattern)) :
    Viable before S (Reader.accept pattern) := by
  have hpure : (fun b => if b = true then Pure.pure true else Pure.pure false) =
      (Pure.pure : Bool → Reader Bool) := by
    funext b
    cases b <;> rfl
  have hviable := accept (x := Pure.pure true) (y := Pure.pure false) (.pure hpattern) (.pure h)
  rwa [hpure, bind_pure] at hviable

/-- At the end of the tokens or before it. -/
theorem atEnd {f : Bool → Reader β} (htrue : Viable before S (f true))
    (hfalse : Viable before S (f false)) : Viable before S (Reader.atEnd >>= f) where
  takes {ts _ _} hread := by
    cases ts with
    | nil => exact htrue.takes hread
    | cons t us => exact hfalse.takes hread
  stops {ts _ _} hread hdeep := by
    cases ts with
    | nil => exact htrue.stops hread hdeep
    | cons t us => exact hfalse.stops hread hdeep

theorem endOfInput (h : S before) : Viable before S endOfInput :=
  atEnd (.pure h) (.fail (.of h))

/-- `r` and nothing else. -/
theorem whole (h : Viable before S r) :
    Viable before S (do let a ← r; Reader.endOfInput; return a) := by
  have hend : Viable [] (fun ts => ts = []) Reader.endOfInput := .endOfInput rfl
  refine h.bind (fun _ => hend.map _) (.of rfl) ?_
  rintro us vs hus rfl
  rwa [List.append_nil]

/-- With the value of a token or without one. -/
theorem takeIf_bind {p : Token → Option α} {f : Option α → Reader β}
    (hsome : ∀ t c, p t = some c → Viable (before ++ [t]) S (f (some c)))
    (hnone : Viable before S (f none)) : Viable before S (Reader.takeIf p >>= f) where
  takes hread := by
    rcases takeIf_bind_done.mp hread with ⟨t, us, c, rfl, hc, hread⟩ | ⟨-, hread⟩
    · obtain ⟨used, rfl, hS⟩ := (hsome t c hc).takes hread
      exact ⟨t :: used, rfl, by simpa using hS⟩
    · exact hnone.takes hread
  stops hread hdeep := by
    rcases takeIf_bind_failed.mp hread with ⟨t, us, c, rfl, hc, hread⟩ | ⟨-, hread⟩
    · obtain ⟨used, rfl, hbegun, hamong⟩ := (hsome t c hc).stops hread hdeep
      exact ⟨t :: used, rfl, by simpa using hbegun, by simpa using hamong⟩
    · exact hnone.stops hread hdeep

/-- A token that has a value, or none. -/
theorem takeIf {p : Token → Option α} (h : S before)
    (ht : ∀ t, (p t).isSome = true → S (before ++ [t])) : Viable before S (takeIf p) where
  takes hread := by
    rcases takeIf_done.mp hread with ⟨t, c, rfl, hc, rfl⟩ | ⟨-, rfl, rfl⟩
    · exact ⟨[t], rfl, ht t (by rw [hc]; rfl)⟩
    · exact ⟨[], rfl, by simpa using h⟩
  stops hread := absurd hread takeIf_not_failed

/-- A token that has a value.  There is such a token. -/
theorem require {p : Token → Option α} {wanted : Wanted}
    (hp : ∃ t, (p t).isSome = true ∧ t.IsLexical)
    (ht : ∀ t, (p t).isSome = true → S (before ++ [t])) : Viable before S (require p wanted) where
  takes hread := by
    obtain ⟨t, rfl, hc⟩ := require_done.mp hread
    exact ⟨[t], rfl, ht t (by rw [hc]; rfl)⟩
  stops hread _ := by
    obtain ⟨-, rfl, rfl⟩ := require_failed.mp hread
    obtain ⟨t, hc, hlexical⟩ := hp
    exact ⟨[], rfl, ⟨[t], by simpa using ht t hc, by simpa using hlexical⟩, trivial⟩

theorem expectKeyword {k : Keyword} (h : S (before ++ [.keyword k])) :
    Viable before S (expectKeyword k) where
  takes hread := by
    obtain rfl := expectKeyword_done.mp hread
    exact ⟨[.keyword k], rfl, h⟩
  stops hread _ := by
    obtain ⟨-, rfl, rfl⟩ := expectKeyword_failed.mp hread
    exact ⟨[], rfl, ⟨[.keyword k], by simpa using h, List.forall_mem_singleton.mpr trivial⟩,
      trivial⟩

theorem word (k : Keyword) : Viable [] (Word k) (Reader.expectKeyword k) := .expectKeyword rfl

theorem dispatch {next : Token → Option (Reader α)} {wanted : Wanted} (hS : S.BegunBy [])
    (h : ∀ t r, next t = some r → Viable [t] S r) : Viable [] S (dispatch next wanted) where
  takes hread := by
    obtain ⟨t, us, r, rfl, ht, hread⟩ := dispatch_done.mp hread
    obtain ⟨used, rfl, hS⟩ := (h t r ht).takes hread
    exact ⟨t :: used, rfl, hS⟩
  stops hread hdeep := by
    rcases dispatch_failed.mp hread with ⟨-, rfl, rfl⟩ | ⟨t, us, r, rfl, ht, hread⟩
    · exact ⟨[], rfl, hS, trivial⟩
    · obtain ⟨used, rfl, hbegun, hamong⟩ := (h t r ht).stops hread hdeep
      exact ⟨t :: used, rfl, hbegun, hamong⟩

/-- Round after round, where each goes on with a phrase that the rounds before it made. -/
theorem repeated {next : Token → Option (Reader α)} (h : S before)
    (hround : ∀ t r, next t = some r → Viable [t] T r)
    (hS : ∀ us vs, S us → T vs → S (us ++ vs)) : Viable before S (repeated next) where
  takes hread := by
    refine repeated_done_induction (P := fun ts _ rest => ∀ before, S before →
      ∃ used, ts = used ++ rest ∧ S (before ++ used)) ?_ ?_ hread before h
    · exact fun ts _ before h => ⟨[], rfl, by simpa using h⟩
    · intro t us r a mid as rest ht hread ih before h
      obtain ⟨used, rfl, hT⟩ := (hround t r ht).takes hread
      obtain ⟨used', rfl, hS'⟩ := ih (before ++ t :: used) (hS _ _ h hT)
      exact ⟨t :: used ++ used', by simp, by simpa using hS'⟩
  stops {_ fault rest} hread hdeep := by
    refine repeated_failed_induction (P := fun ts => ∀ before, S before →
      ∃ used, ts = used ++ rest ∧ S.BegunBy (before ++ used) ∧
        fault.Among (before ++ used) rest) ?_ ?_ hread before h
    · intro t us r ht hread before h
      obtain ⟨used, rfl, hbegun, hamong⟩ := (hround t r ht).stops hread hdeep
      exact ⟨t :: used, rfl, hbegun.behind fun _ hT => hS _ _ h hT, hamong.behind before⟩
    · intro t us r a mid ht hread ih before h
      obtain ⟨used, rfl, hT⟩ := (hround t r ht).takes hread
      obtain ⟨used', rfl, hbegun, hamong⟩ := ih (before ++ t :: used) (hS _ _ h hT)
      exact ⟨t :: used ++ used', by simp, by simpa using hbegun, by simpa using hamong⟩

/-- One item, or more with a comma between each two. -/
theorem commaList {item : Reader α} (h : Viable [] S item) (hone : ∀ ts, S ts → T ts)
    (hmore : ∀ us vs, S us → T vs → T (us ++ .comma :: vs)) : Viable [] T (commaList item) where
  takes {ts as rest} hread := by
    induction as generalizing ts with
    | nil =>
      obtain ⟨a, mid, -, ⟨-, h, -⟩ | ⟨us, as', -, -, h⟩⟩ := commaList_done.mp hread
      all_goals cases h
    | cons a as ih =>
      obtain ⟨a', mid, hitem, ⟨-, -, rfl⟩ | ⟨us, as', rfl, hlist, hcons⟩⟩ := commaList_done.mp hread
      · obtain ⟨used, rfl, hS⟩ := h.takes hitem
        exact ⟨used, rfl, hone _ hS⟩
      · cases hcons
        obtain ⟨used, rfl, hS⟩ := h.takes hitem
        obtain ⟨used', rfl, hT⟩ := ih hlist
        exact ⟨used ++ .comma :: used', by simp, hmore _ _ hS hT⟩
  stops {ts fault rest} hread hdeep := by
    refine commaList_failed_induction (P := fun ts => ∃ used, ts = used ++ rest ∧
      T.BegunBy ([] ++ used) ∧ fault.Among ([] ++ used) rest) ?_ ?_ hread
    · intro ts hitem
      obtain ⟨used, hts, hbegun, hamong⟩ := h.stops hitem hdeep
      exact ⟨used, hts, hbegun.mono hone, hamong⟩
    · rintro ts a us hitem ⟨used', rfl, hbegun, hamong⟩
      obtain ⟨used, rfl, hS⟩ := h.takes hitem
      refine ⟨used ++ .comma :: used', by simp, ?_, ?_⟩
      · rw [List.nil_append, List.append_cons]
        exact hbegun.behind fun ts hT => by simpa using hmore _ _ hS hT
      · rw [List.nil_append, List.append_cons]
        exact hamong.behind (used ++ [.comma])

/-- The items of a list, each with the tokens `g` that it is. -/
theorem listed {item : Reader α} {g : α → List Token}
    (h : Viable [] (SpellingOf g) item) :
    Viable [] (fun ts => ∃ as ≠ [], ts = commaSeparated (as.map g)) (Reader.commaList item) := by
  refine h.commaList ?_ ?_
  · rintro ts ⟨a, rfl⟩
    exact ⟨[a], by simp, by simp⟩
  · rintro us vs ⟨a, rfl⟩ ⟨as, hne, rfl⟩
    exact ⟨a :: as, by simp, by rw [List.map_cons, commaSeparated_cons (by simpa using hne)]⟩

/-- A keyword with what it introduces, or nothing. -/
theorem introduced {k : Keyword} (hr : Viable [.keyword k] S r) (hS : S []) :
    Viable [] S (introduced k r) :=
  accept (hr.map some) (.pure hS)

/-- A list that a keyword and `BY` introduce, or nothing. -/
theorem listBy {k : Keyword} {item : Reader α} {g : α → List Token} (a : α)
    (ha : ∀ t ∈ g a, t.IsLexical) (h : Viable [] (SpellingOf g) item) :
    Viable [] (SpellingOf fun as : List α => byTokens k (as.map g)) (listBy k item) := by
  refine accept ?_ (.pure ⟨[], rfl⟩)
  refine (expectKeyword (S := fun ts => ts = [.keyword k, .keyword .BY]) rfl).bind
    (fun _ => h.listed) (.nil ⟨[a], by simp, rfl⟩ (by simpa using ha)) ?_
  rintro us vs rfl ⟨as, hne, rfl⟩
  obtain ⟨a, as, rfl⟩ := List.exists_cons_of_ne_nil hne
  exact ⟨a :: as, rfl⟩

/-- `r` and the parenthesis that closes it, behind the one that opens it. -/
theorem enclosed (h : Viable [] S r) (hT : ∀ ts, S ts → T (enclose ts)) :
    Viable [.leftParen] T (enclosed r) where
  takes hread := by
    obtain ⟨used, rfl, hS⟩ := h.takes (enclosed_done.mp hread)
    exact ⟨used ++ [.rightParen], by simp, hT _ hS⟩
  stops hread hdeep := by
    rcases enclosed_failed.mp hread with hinner | ⟨a, hinner, -, rfl⟩
    · obtain ⟨used, rfl, ⟨more, hS, hmore⟩, hamong⟩ := h.stops hinner hdeep
      refine ⟨used, rfl, ⟨more ++ [.rightParen], ?_, ?_⟩, hamong.behind [.leftParen]⟩
      · simpa [enclose] using hT _ hS
      · exact List.forall_mem_append.mpr ⟨hmore, List.forall_mem_singleton.mpr trivial⟩
    · obtain ⟨used, rfl, hS⟩ := h.takes hinner
      exact ⟨used, rfl, ⟨[.rightParen], hT _ hS, List.forall_mem_singleton.mpr trivial⟩,
        [], used, rfl, rfl⟩

/-- `r` between parentheses. -/
theorem inParens (h : Viable [] S r) (hT : ∀ ts, S ts → T (enclose ts)) (hS : S.BegunBy []) :
    Viable [] T (inParens r) where
  takes hread := by
    obtain ⟨us, rfl, hr⟩ := inParens_done.mp hread
    obtain ⟨used, rfl, hT'⟩ := (h.enclosed hT).takes (enclosed_done.mpr hr)
    exact ⟨.leftParen :: used, rfl, hT'⟩
  stops hread hdeep := by
    rcases inParens_failed.mp hread with ⟨-, rfl, rfl⟩ | ⟨us, rfl, hr⟩
    · obtain ⟨us, hus, hlexical⟩ := hS
      refine ⟨[], rfl, .nil (hT _ hus) fun t ht => ?_, trivial⟩
      rcases List.mem_cons.mp ht with rfl | ht
      · trivial
      · rcases List.mem_append.mp ht with ht | ht
        · exact hlexical t ht
        · rw [List.mem_singleton.mp ht]
          trivial
    · obtain ⟨used, rfl, hbegun, hamong⟩ := (h.enclosed hT).stops hr hdeep
      exact ⟨.leftParen :: used, rfl, hbegun, hamong⟩

end Viable
end Grammar
end QueryCanon
