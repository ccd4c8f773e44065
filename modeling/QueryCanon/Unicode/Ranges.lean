/-
A class of characters, given as ranges of code points in increasing order.
-/
namespace QueryCanon
namespace Unicode

/-- Disjoint closed ranges of code points, in increasing order. -/
abbrev Ranges := List (Nat × Nat)

/-- The search stops at the first range that begins above `n`; the ranges are in
increasing order, so no later one can hold `n`. -/
def Ranges.holds : Ranges → Nat → Bool
  | [], _ => false
  | (low, high) :: more, n => low ≤ n && (n ≤ high || Ranges.holds more n)

/-- Code points below every range are in none. -/
theorem Ranges.holds_of_lt {low high n : Nat} (more : Ranges) (h : n < low) :
    Ranges.holds ((low, high) :: more) n = false := by
  simp [Ranges.holds, Nat.not_le.mpr h]

end Unicode
end QueryCanon
