/-!
# Code point ranges

Character properties are kept as tables of closed ranges of code points.
-/

namespace Dialogue.Text

def inRanges (table : List (Nat × Nat)) (c : Nat) : Bool :=
  table.any fun r => r.1 ≤ c && c ≤ r.2

end Dialogue.Text
