/-
How deep the reading of canonical text goes.

It goes at most twice as deep as the reading of the source.  The levels of a tree are the
link: no tree has more of them than its reading went deep, and no reading goes deeper than
the levels that its limit has to have room for.
-/
import QueryCanon.Proofs.Canonical.Survival
import QueryCanon.Proofs.Parser.Cap
import QueryCanon.Proofs.Query.Headroom

namespace QueryCanon

open Grammar

namespace Grammar

variable {α : Type} {n m : Nat} {s : Symbol} {r : Nat → Reader s.Value} {v : s.Value}
  {ts rest : List Token}

/-- What is read has no more levels than its reading goes deep. -/
theorem ReadsWhole.levels_le_peak (h : ReadsWhole s r) (hread : (r n).read ts = .done v rest) :
    s.levels v ≤ (r n).peak ts := by
  have hlevels : ∀ {m}, (r m).read ts = .done v rest → s.levels v ≤ m := fun hread => by
    obtain ⟨us, -, hd⟩ := h.sound hread
    exact hd.levels_le
  rcases Nat.le_total ((r n).peak ts) n with hle | hge
  · rw [← (h.capped hle).read_eq (Nat.le_refl _)] at hread
    exact hlevels hread
  · exact Nat.le_trans (hlevels hread) hge

/-- What is read under a limit is not read deeper without it. -/
theorem peak_uncapped_le {r : Nat → Reader α} {a : α}
    (hcapped : Capped n (r n) (uncapped r)) (hread : (r n).read ts = .done a rest) :
    (uncapped r).peak ts ≤ n := by
  refine Nat.le_of_not_lt fun hpeak => ?_
  obtain ⟨d, left, -, hdeep, -⟩ := hcapped.read_tooDeep hpeak
  rw [hread] at hdeep
  cases hdeep

end Grammar

/-- The canonical text of an accepted text is read to its end without a limit, at most twice
as deep as that text was read.  So if that text was read no deeper than half the limit, its
canonical text is accepted. -/
theorem canonicalize_peak {text canonical : String} (h : canonicalize text = .ok canonical) :
    ∃ source result, Parser.ofText text = .ok source ∧ Parser.ofText canonical = .ok result ∧
      (∃ q, (uncapped wholeStatement).read result.kinds = .done q []) ∧
      (uncapped wholeStatement).peak result.kinds ≤
        2 * (wholeStatement nestingLimit).peak source.kinds ∧
      ((wholeStatement nestingLimit).peak source.kinds ≤ nestingLimit / 2 →
        ∃ q, parse canonical = .ok q) := by
  obtain ⟨q, hparse, rfl⟩ := canonicalize_ok h
  obtain ⟨source, rest, hsource, hdone⟩ := readText_ok hparse
  obtain ⟨result, hresult, htokens⟩ := q.ofText_text (Parser.isLexical_ofText hsource) hdone
  have hlevels : q.wrapped.levels ≤ 2 * (wholeStatement nestingLimit).peak source.kinds :=
    Nat.le_trans q.levels_wrapped_le
      (Nat.mul_le_mul_left 2 (wholeStatement_reads.levels_le_peak hdone))
  have hagain : ∀ m, q.wrapped.levels ≤ m →
      (wholeStatement m).read result.kinds = .done q.wrapped [] := fun m hm => by
    rw [Parser.kinds, htokens]
    exact wholeStatement_reads.reread hdone hm
  have hpeak := peak_uncapped_le (wholeStatement_capped_uncapped _) (hagain _ hlevels)
  refine ⟨source, result, hsource, hresult, ⟨q.wrapped, ?_⟩, hpeak, fun hhalf => ⟨q.wrapped, ?_⟩⟩
  · rw [← (wholeStatement_capped_uncapped _).read_eq hpeak]
    exact hagain _ hlevels
  · exact (parse_readsBack hparse).enough nestingLimit (by omega)

/-- `b = NOT c` is read three levels deep, and `b = (NOT c)` four. -/
theorem canonicalize_peak_negation :
    canonicalize "SELECT a WHERE b = NOT c" = .ok "SELECT a WHERE b = (NOT c)" ∧
    ∃ source result, Parser.ofText "SELECT a WHERE b = NOT c" = .ok source ∧
      Parser.ofText "SELECT a WHERE b = (NOT c)" = .ok result ∧
      (∃ q, (uncapped wholeStatement).read result.kinds = .done q []) ∧
      (uncapped wholeStatement).peak result.kinds ≤
        2 * (wholeStatement nestingLimit).peak source.kinds ∧
      ((wholeStatement nestingLimit).peak source.kinds ≤ nestingLimit / 2 →
        ∃ q, parse "SELECT a WHERE b = (NOT c)" = .ok q) := by
  have hcanonical : canonicalize "SELECT a WHERE b = NOT c" = .ok "SELECT a WHERE b = (NOT c)" :=
    ok_of_toOption (by decide +kernel)
  exact ⟨hcanonical, canonicalize_peak hcanonical⟩

end QueryCanon
