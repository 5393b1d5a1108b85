import DaemonKeeper.Text.Pieces
set_option autoImplicit false

/-!
# Paths

A path is kept as it was written.  Joining never normalises: an absolute right side replaces the
left one, otherwise exactly one separator stands between the two.  The view that tells where a
path leads is its list of components.
-/

namespace DaemonKeeper

/-- A path as written. -/
structure Path where
  text : String
  deriving DecidableEq, Repr, Inhabited

namespace Path

/-- Starts at the root. -/
def isAbsolute (p : Path) : Bool := p.text.toList.head? = some '/'

/-- `right` seen from `left`. -/
def join (left : Path) (right : String) : Path :=
  if (Path.mk right).isAbsolute then ⟨right⟩
  else if left.text.isEmpty || left.text.toList.getLast? = some '/' then ⟨left.text ++ right⟩
  else ⟨left.text ++ "/" ++ right⟩

/-- The names along the path; empty names and `.` lead nowhere and are left out. -/
def names (p : Path) : List String :=
  ((Text.pieces '/' p.text.toList).map String.ofList).filter fun n => n != "" && n != "."

end Path

end DaemonKeeper
