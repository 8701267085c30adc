/-!
# Sets of code points

A character class is written down as a list of closed ranges, and membership is a scan of that
list. The classes themselves are in the modules beside this one.

## Main definitions

* `Ranges` — the ranges of a class, in increasing order
* `Ranges.contains` — membership
-/

namespace Fluxion.Unicode

/-- A set of code points, as closed ranges in increasing order. -/
abbrev Ranges := List (Nat × Nat)

/-- Whether some range of the list holds `n`. -/
def Ranges.contains (ranges : Ranges) (n : Nat) : Bool :=
  ranges.any fun r => r.1 ≤ n && n ≤ r.2

theorem Ranges.contains_iff {ranges : Ranges} {n : Nat} :
    ranges.contains n = true ↔ ∃ r ∈ ranges, r.1 ≤ n ∧ n ≤ r.2 := by
  simp [Ranges.contains]

/-- The first code point of the range that holds `n`. -/
def Ranges.start? (ranges : Ranges) (n : Nat) : Option Nat :=
  (ranges.find? fun r => r.1 ≤ n && n ≤ r.2).map Prod.fst

end Fluxion.Unicode
