/-!
# Sets of characters as ranges of code points

* `CodeRanges`: inclusive ranges of code points, in increasing order.
* `CodeRanges.contains`: membership of a character.
-/

namespace DeoLang

/-- Inclusive ranges of code points. -/
abbrev CodeRanges := List (Nat × Nat)

/-- Whether the code point of `c` lies in one of the ranges. -/
def CodeRanges.contains (ranges : CodeRanges) (c : Char) : Bool :=
  ranges.any fun range => range.1 ≤ c.toNat && c.toNat ≤ range.2

end DeoLang
