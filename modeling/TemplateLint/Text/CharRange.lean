/-!
Sets of characters given as inclusive ranges of code points.
-/

namespace TemplateLint.Text

/-- Some range holds the character; a range holds both its ends. -/
def inRanges (ranges : List (Nat × Nat)) (c : Char) : Bool :=
  ranges.any fun (low, high) => decide (low ≤ c.toNat) && decide (c.toNat ≤ high)

end TemplateLint.Text
