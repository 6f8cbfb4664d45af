-- Sets of characters, given by the ranges of their code points. A table of a Unicode property is
-- such a set; membership is a plain search, so a fact about it can be read off the list.

namespace RouteTypes.Text

/-- A set of characters: closed ranges of code points, in rising order. -/
abbrev Ranges := List (Nat × Nat)

/-- Whether one of the ranges holds the character. -/
def Ranges.has (ranges : Ranges) (c : Char) : Bool :=
  ranges.any fun (low, high) => low ≤ c.toNat && c.toNat ≤ high

theorem Ranges.has_iff (ranges : Ranges) (c : Char) :
    ranges.has c = true ↔ ∃ r ∈ ranges, r.1 ≤ c.toNat ∧ c.toNat ≤ r.2 := by
  simp [Ranges.has, List.any_eq_true]

end RouteTypes.Text
