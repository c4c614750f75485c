import ThermalLabel.Text.Basic
/-!
# Cutting text to a length

Lengths count code points. A text within its limit stays whole; a longer one keeps its first
code points and gains a suffix. A negative limit counts from the end.
-/

namespace ThermalLabel

/-- The first `limit` characters, or all but the last `-limit` ones. -/
def keepFirst (limit : Int) (ps : List CodePoint) : List CodePoint :=
  if 0 ≤ limit then ps.take limit.toNat else ps.take (ps.length - limit.natAbs)

/-- A text cut to a limit, with a suffix exactly when it was longer than the limit. -/
def cutText (text : Text) (limit : Option Int) (suffix : Text) : Text :=
  match limit with
  | none => text
  | some n =>
    if (text.length : Int) ≤ n then text
    else Text.ofPoints (keepFirst n text.points) ++ suffix

def ellipsis : String := "..."

end ThermalLabel
