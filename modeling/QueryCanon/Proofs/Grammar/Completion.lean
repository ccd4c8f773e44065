/-
What has been read before an error, completed and read again.

The readers of whole texts are viable, and without a limit on nesting they read the token
lists that they are viable for.  So whatever they have taken when they fail, there are
tokens that complete it, and they can be written.
-/
import QueryCanon.Proofs.Grammar.Peak
import QueryCanon.Proofs.Grammar.Prefix
import QueryCanon.Proofs.Grammar.Rereading
import QueryCanon.Proofs.Grammar.Script

namespace QueryCanon
namespace Grammar

open Reader

variable {α : Type} {n m N : Nat} {ts us rest : List Token}

/-- Without a limit `r` reads all of `ts`. -/
def Accepts (r : Nat → Reader α) (ts : List Token) : Prop :=
  ∃ a, (uncapped r).read ts = .done a []

theorem accepts_of_done {r : Nat → Reader α} {a : α} (hcapped : Capped n (r n) (uncapped r))
    (h : (r n).read ts = .done a []) : Accepts r ts :=
  ⟨a, hcapped.read_mono h⟩

theorem Derivable.longest {s : Symbol} (hs : s.isWhole = true) (h : Derivable N s ts) :
    ∃ v, Derives .longest ts.length s ts v := by
  obtain ⟨v, hd⟩ := h
  obtain ⟨n, v', hd'⟩ := hd.reached.of_isWhole hs
  exact ⟨v', hd'.within_length⟩

theorem accepts_wholeExpression (h : Derivable N .expression ts) : Accepts wholeExpression ts := by
  obtain ⟨e, hd⟩ := h.longest rfl
  exact accepts_of_done (wholeExpression_capped_uncapped _) (wholeExpression_reads.complete hd)

theorem after_semicolon : After 7 (.semicolon :: rest) := after_cons.mpr (by decide)

theorem accepts_wholeStatement (h : Closed N ts) : Accepts wholeStatement ts := by
  obtain ⟨us, hts, hus⟩ := h
  obtain ⟨q, hd⟩ := hus.longest rfl
  rcases hts with rfl | rfl
  · exact accepts_of_done (wholeStatement_capped_uncapped _) (wholeStatement_reads.complete hd)
  · refine accepts_of_done (a := q) (wholeStatement_capped_uncapped us.length) ?_
    refine bind_done.mpr ⟨q, [.semicolon], hd.completes _ after_semicolon, ?_⟩
    refine accept_bind_done.mpr (.inl ⟨[], rfl, ?_⟩)
    exact bind_done.mpr ⟨(), [], endOfInput_done.mpr ⟨rfl, rfl⟩, rfl⟩

/-! ### Scripts -/

theorem Slot.fills {slot : List Token} (h : Slot N slot) (hm : slot.length ≤ m) :
    ∃ o, Fills m slot o := by
  rcases h with rfl | hquery
  · exact ⟨none, .empty⟩
  · obtain ⟨q, hd⟩ := hquery.longest rfl
    exact ⟨some q, .query (hd.mono hm)⟩

theorem Slot.lists {first : List Token} {slots : List (List Token)} (hfirst : Slot N first)
    (hslots : ∀ slot ∈ slots, Slot N slot)
    (hm : (first ++ slots.flatMap (.semicolon :: ·)).length ≤ m) :
    ∃ os, Lists m (first ++ slots.flatMap (.semicolon :: ·)) os := by
  induction slots generalizing first with
  | nil =>
    obtain ⟨o, ho⟩ := hfirst.fills (by simpa using hm)
    exact ⟨[o], by simpa using Lists.last ho⟩
  | cons slot slots ih =>
    obtain ⟨hslot, hmore⟩ := List.forall_mem_cons.mp hslots
    simp only [List.flatMap_cons, List.cons_append, List.length_append, List.length_cons] at hm ih ⊢
    have hlength : first.length ≤ m := by omega
    obtain ⟨o, ho⟩ := hfirst.fills hlength
    obtain ⟨os, hos⟩ := ih hslot hmore (by omega)
    exact ⟨o :: os, .more ho hos⟩

theorem accepts_script (h : ((Slot N).then (Slots N)) ts) : Accepts script ts := by
  obtain ⟨first, _, rfl, hfirst, slots, hslots, rfl⟩ := h
  obtain ⟨os, hos⟩ := hfirst.lists hslots (Nat.le_refl _)
  exact accepts_of_done (script_capped_uncapped _) (script_done_iff.mpr ⟨rfl, os, hos, rfl⟩)

/-! ### Points -/

theorem Derivable.pointed {s : Symbol} (h : Derivable N s ts) : Pointed ts := by
  obtain ⟨v, hd⟩ := h
  exact Derives.pointed hd

theorem Closed.pointed (h : Closed N ts) : Pointed ts := by
  obtain ⟨us, hts, hus⟩ := h
  rcases hts with rfl | rfl
  · exact hus.pointed
  · exact hus.pointed.append (.cons nofun .nil)

theorem Slot.pointed {slot : List Token} (h : Slot N slot) : Pointed slot := by
  rcases h with rfl | hquery
  · exact .nil
  · exact hquery.pointed

theorem slots_pointed {slots : List (List Token)} (h : ∀ slot ∈ slots, Slot N slot) :
    Pointed (slots.flatMap (.semicolon :: ·)) := by
  induction slots with
  | nil => exact .nil
  | cons slot slots ih =>
    obtain ⟨hslot, hslots⟩ := List.forall_mem_cons.mp h
    rw [List.flatMap_cons, List.cons_append]
    exact .cons nofun (hslot.pointed.append (ih hslots))

theorem script_pointed (h : ((Slot N).then (Slots N)) ts) : Pointed ts := by
  obtain ⟨first, _, rfl, hfirst, slots, hslots, rfl⟩ := h
  exact hfirst.pointed.append (slots_pointed hslots)

/-! ### Errors -/

/-- With `more` behind `used` it is all read without a limit, and can be written if `used` can. -/
structure CompletedBy (r : Nat → Reader α) (used more : List Token) : Prop where
  accepts : Accepts r (used ++ more)
  pointed : Pointed (used ++ more)
  lexical : ∀ t ∈ more, t.IsLexical

/-- What `r` has taken before it fails can be completed. -/
def FailsViably (r : Nat → Reader α) : Prop :=
  ∀ {n ts fault rest}, (r n).read ts = .failed fault rest → fault ≠ .tooDeep →
    ∃ used more, ts = used ++ rest ∧ CompletedBy r used more ∧ fault.Among used rest

/-- A reader fails in front of the end of what it reads. -/
theorem FailsViably.among (hr : FailsViably r) (h : (r n).read ts = .failed fault rest) :
    ∃ used, ts = used ++ rest ∧ fault.Among used rest := by
  by_cases hdeep : fault = .tooDeep
  · subst hdeep
    have hsuffix := (r n).suffix ts
    rw [h] at hsuffix
    obtain ⟨used, hused⟩ := hsuffix
    exact ⟨used, hused.symm, trivial⟩
  · obtain ⟨used, more, hts, -, hamong⟩ := hr h hdeep
    exact ⟨used, hts, hamong⟩

theorem Viable.failsViably {S : Nat → Phrases} {r : Nat → Reader α}
    (h : ∀ n, Viable [] (S (n + 1)) (r n)) (haccepts : ∀ {N ts}, S N ts → Accepts r ts)
    (hpointed : ∀ {N ts}, S N ts → Pointed ts) : FailsViably r := by
  intro n ts fault rest hread hdeep
  obtain ⟨used, hts, ⟨more, hS, hlexical⟩, hamong⟩ := (h n).stops hread hdeep
  exact ⟨used, more, hts, ⟨haccepts hS, hpointed hS, hlexical⟩, hamong⟩

theorem wholeStatement_failsViably : FailsViably wholeStatement :=
  Viable.failsViably (S := Closed) wholeStatement_viable accepts_wholeStatement Closed.pointed

theorem wholeExpression_failsViably : FailsViably wholeExpression :=
  Viable.failsViably (S := fun N => Derivable N .expression) wholeExpression_viable
    accepts_wholeExpression Derivable.pointed

theorem script_failsViably : FailsViably script :=
  Viable.failsViably (S := fun N => (Slot N).then (Slots N)) script_viable accepts_script
    script_pointed

end Grammar
end QueryCanon
