/-!
# Ranges of code points

A property of characters is held as closed ranges of code points, ascending and apart.  This
module has the one question asked of such ranges; the tables of the single properties stand in
modules of their own.
-/

set_option autoImplicit false

namespace XmlWorkload.Text

/-- Whether a code point lies in one of the ranges, each given by its first and last point. -/
def inRanges (ranges : List (Nat × Nat)) (point : Nat) : Bool :=
  ranges.any fun range => decide (range.1 ≤ point) && decide (point ≤ range.2)

/-- A code point lies in one of the ranges exactly when it lies between the ends of one. -/
theorem inRanges_iff (ranges : List (Nat × Nat)) (point : Nat) :
    inRanges ranges point = true ↔ ∃ range ∈ ranges, range.1 ≤ point ∧ point ≤ range.2 := by
  simp [inRanges]

end XmlWorkload.Text
