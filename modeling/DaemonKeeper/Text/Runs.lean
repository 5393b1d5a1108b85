set_option autoImplicit false

/-!
# Text: code point classes as run lengths

A class of code points is kept as the lengths of its runs: how many code points from zero lie
outside, then how many inside, then outside again, and so on.  What comes after the last run is
outside.
-/

namespace DaemonKeeper.Text

/-- Membership in the class whose alternating runs are given, outside first. -/
def inRuns : List Nat → Nat → Bool
  | skip :: keep :: rest, n =>
    if n < skip then false
    else if n < skip + keep then true
    else inRuns rest (n - skip - keep)
  | _, _ => false

end DaemonKeeper.Text
