/-
Scripts, slot by slot.

A script is a list of slots with a semicolon between each two, and in a slot there stands a
query or nothing.  A slot is read alike whatever stands behind its semicolon.  So of two
scripts with a semicolon between them the second is read as it is read alone
(`script_read_append`), and what a script is read from is told by `Lists`
(`script_done_iff`).
-/
import QueryCanon.Proofs.Grammar.Completeness
import QueryCanon.Proofs.Grammar.Soundness

namespace QueryCanon
namespace Grammar

open Reader

/-- The tokens of a slot, and the query that stands there. -/
inductive Fills (n : Nat) : List Token → Option Query → Prop
  | empty : Fills n [] none
  | query {ts q} : Derives .longest n .query ts q → Fills n ts (some q)

/-- The tokens of one or more slots, and the queries that stand there. -/
inductive Lists (n : Nat) : List Token → List (Option Query) → Prop
  | last {ts o} : Fills n ts o → Lists n ts [o]
  | more {ts o us os} : Fills n ts o → Lists n us os → Lists n (ts ++ .semicolon :: us) (o :: os)

/-- Behind a slot comes a semicolon or nothing. -/
def AtSemicolon (ts : List Token) : Prop := ∀ t ∈ ts.head?, t = .semicolon

variable {n : Nat} {ts us rest : List Token} {o : Option Query} {os : List (Option Query)}
  {qs : List Query}

theorem atSemicolon_nil : AtSemicolon [] := nofun

theorem atSemicolon_cons (ts : List Token) : AtSemicolon (.semicolon :: ts) := by
  intro t ht
  simpa [eq_comm] using ht

theorem AtSemicolon.after (h : AtSemicolon rest) : After 7 rest := by
  intro t ht
  rw [h t ht]
  rfl

/-! ### One slot -/

theorem Fills.reads (h : Fills n ts o) (hrest : AtSemicolon rest) :
    (slot n).read (ts ++ rest) = .done o rest := by
  have hafter := hrest.after
  cases h with
  | empty => exact introduced_done.mpr (.inr ⟨hafter.head?_ne (by decide), rfl, rfl⟩)
  | @query ts q hd =>
    obtain ⟨_, mid, hselect, hbody⟩ := bind_done.mp (hd.completes rest hafter)
    rw [expectKeyword_done.mp hselect]
    exact introduced_done.mpr (.inl ⟨mid, q, rfl, hbody, rfl⟩)

theorem fills_of_slot (h : (slot n).read ts = .done o rest) :
    ∃ used, ts = used ++ rest ∧ Fills n used o := by
  obtain ⟨us, q, rfl, hread, rfl⟩ | ⟨-, rfl, rfl⟩ := introduced_done.mp h
  · obtain ⟨used, rfl, hd⟩ := queryBody_takes (expression_sound n) hread
    exact ⟨.keyword .SELECT :: used, rfl, .query hd⟩
  · exact ⟨[], rfl, .empty⟩

/-! ### All slots -/

/-- The slots behind the first. -/
def laterSlots (n : Nat) : Reader (List (Option Query)) :=
  repeated fun t => if t = .semicolon then some (slot n) else none

/-- All slots of a script, whatever follows them. -/
def slots (n : Nat) : Reader (List (Option Query)) := do
  let first ← slot n
  let more ← laterSlots n
  return first :: more

theorem read_slots (n : Nat) (ts : List Token) :
    (slots n).read ts =
      match (slot n).read ts with
      | .done o rest => ((laterSlots n).read rest).map (o :: ·)
      | .failed fault rest => .failed fault rest := by
  rw [slots, read_bind]
  cases (slot n).read ts with
  | failed fault rest => rfl
  | done o rest =>
    dsimp only
    rw [read_bind]
    cases (laterSlots n).read rest <;> rfl

theorem read_laterSlots_cons (n : Nat) (ts : List Token) :
    (laterSlots n).read (.semicolon :: ts) = (slots n).read ts := by
  rw [read_slots, laterSlots, repeated_cons (r := slot n) (by simp)]
  cases (slot n).read ts <;> rfl

theorem read_laterSlots_nil (n : Nat) : (laterSlots n).read [] = .done [] [] :=
  repeated_of_clear (clear_nil _)

/-- A script is its slots up to the end of the input. -/
theorem read_script (n : Nat) (ts : List Token) :
    (script n).read ts =
      match (slots n).read ts with
      | .done os rest =>
        if rest.isEmpty then .done (os.filterMap id) rest
        else .failed (.expected (missing os)) rest
      | .failed fault rest => .failed fault rest := by
  rw [script, slots, laterSlots, read_bind, read_bind]
  cases (slot n).read ts with
  | failed fault rest => rfl
  | done first mid =>
    dsimp only
    rw [read_bind, read_bind]
    cases (repeated fun t => if t = .semicolon then some (slot n) else none).read mid with
    | failed fault rest => rfl
    | done more rest => cases rest <;> rfl

/-- Behind a slot and its semicolon the other slots are read. -/
theorem Fills.read_slots_append (h : Fills n ts o) (us : List Token) :
    (slots n).read (ts ++ .semicolon :: us) = ((slots n).read us).map (o :: ·) := by
  rw [read_slots n (ts ++ .semicolon :: us), h.reads (atSemicolon_cons us)]
  dsimp only
  rw [read_laterSlots_cons]

theorem Fills.read_slots (h : Fills n ts o) : (slots n).read ts = .done [o] [] := by
  have hslot : (slot n).read (ts ++ []) = .done o [] := h.reads atSemicolon_nil
  rw [List.append_nil] at hslot
  rw [Grammar.read_slots, hslot]
  dsimp only
  rw [read_laterSlots_nil]
  rfl

/-- Slots with a semicolon behind them are read as they are at the end of the input, and what
stands behind the semicolon is read as at the beginning of it. -/
theorem Lists.read_append (h : Lists n ts os) (us : List Token) :
    (slots n).read (ts ++ .semicolon :: us) = ((slots n).read us).map (os ++ ·) := by
  induction h with
  | last hfills => exact hfills.read_slots_append us
  | @more ts o vs os hfills _ ih =>
    rw [List.append_assoc, List.cons_append, hfills.read_slots_append, ih]
    cases (slots n).read us <;> rfl

theorem Lists.reads (h : Lists n ts os) : (slots n).read ts = .done os [] := by
  induction h with
  | last hfills => exact hfills.read_slots
  | more hfills _ ih =>
    rw [hfills.read_slots_append, ih]
    rfl

/-- What is read as slots to the end is a list of slots. -/
theorem lists_of_slots (h : (slots n).read ts = .done os []) : Lists n ts os := by
  induction os generalizing ts with
  | nil =>
    obtain ⟨first, mid, -, h⟩ := bind_done.mp h
    obtain ⟨more, mid', -, h⟩ := bind_done.mp h
    cases h
  | cons o os ih =>
    obtain ⟨first, mid, hfirst, h⟩ := bind_done.mp h
    obtain ⟨more, mid', hmore, h⟩ := bind_done.mp h
    cases h
    obtain ⟨used, rfl, hfills⟩ := fills_of_slot hfirst
    cases mid with
    | nil =>
      rw [read_laterSlots_nil] at hmore
      cases hmore
      rw [List.append_nil]
      exact .last hfills
    | cons t us =>
      by_cases ht : t = .semicolon
      · subst ht
        rw [read_laterSlots_cons] at hmore
        exact .more hfills (ih hmore)
      · have hclear : Clear (fun t => (if t = .semicolon then some (slot n) else none).isSome)
            (t :: us) := by simp [ht]
        rw [laterSlots, repeated_of_clear hclear] at hmore
        cases hmore

/-- A script is read from a list of slots, and from nothing else. -/
theorem script_done_iff :
    (script n).read ts = .done qs rest ↔
      rest = [] ∧ ∃ os, Lists n ts os ∧ qs = os.filterMap id := by
  rw [read_script]
  constructor
  · intro h
    cases hread : (slots n).read ts with
    | failed fault left =>
      rw [hread] at h
      cases h
    | done os left =>
      rw [hread] at h
      cases left with
      | nil =>
        cases h
        exact ⟨rfl, os, lists_of_slots hread, rfl⟩
      | cons t left => cases h
  · rintro ⟨rfl, os, hlists, rfl⟩
    rw [hlists.reads]
    rfl

theorem missing_append (os : List (Option Query)) {os' : List (Option Query)} (h : os' ≠ []) :
    missing (os ++ os') = missing os' := by
  obtain ⟨last, hlast⟩ := Option.isSome_iff_exists.mp (List.getLast?_isSome.mpr h)
  rw [missing, List.getLast?_append, hlast, Option.some_or, missing, hlast]

theorem slots_ne_nil (h : (slots n).read ts = .done os rest) : os ≠ [] := by
  obtain ⟨first, mid, -, h⟩ := bind_done.mp h
  obtain ⟨more, mid', -, h⟩ := bind_done.mp h
  cases h
  exact List.cons_ne_nil first more

/-- Behind a script and a semicolon a further script is read, or fails, as it does alone. -/
theorem script_read_append (h : (script n).read ts = .done qs rest) (us : List Token) :
    (script n).read (ts ++ .semicolon :: us) = ((script n).read us).map (qs ++ ·) := by
  obtain ⟨-, os, hlists, rfl⟩ := script_done_iff.mp h
  rw [read_script, read_script, hlists.read_append]
  cases hread : (slots n).read us with
  | failed fault left => rfl
  | done os' left =>
    dsimp only [Outcome.map]
    rw [missing_append os (slots_ne_nil hread), List.filterMap_append]
    cases left <;> rfl

/-- The queries of a script are queries of the grammar. -/
theorem Lists.derives (h : Lists n ts os) :
    ∀ q, some q ∈ os → ∃ used, used <:+: ts ∧ Derives .longest n .query used q := by
  induction h with
  | @last ts o hfills =>
    intro q hq
    obtain rfl : some q = o := by simpa using hq
    cases hfills with
    | query hd => exact ⟨ts, List.infix_rfl, hd⟩
  | @more ts o us os hfills _ ih =>
    intro q hq
    rcases List.mem_cons.mp hq with rfl | hq
    · cases hfills with
      | query hd => exact ⟨ts, (List.prefix_append ts _).isInfix, hd⟩
    · obtain ⟨used, hused, hd⟩ := ih q hq
      have htail : us <:+ ts ++ .semicolon :: us :=
        (List.suffix_cons _ us).trans (List.suffix_append ts _)
      exact ⟨used, hused.trans htail.isInfix, hd⟩

theorem script_sound (h : (script n).read ts = .done qs rest) :
    ∀ q ∈ qs, ∃ used, used <:+: ts ∧ Derives .longest n .query used q := by
  obtain ⟨-, os, hlists, rfl⟩ := script_done_iff.mp h
  intro q hq
  obtain ⟨o, ho, rfl⟩ := List.mem_filterMap.mp hq
  exact hlists.derives q ho

end Grammar
end QueryCanon
