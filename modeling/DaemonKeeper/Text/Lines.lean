import DaemonKeeper.Text.Pieces
import DaemonKeeper.Text.Utf8
set_option autoImplicit false

/-!
# Text: lines of captured output (SPEC §3.1)

A line ends at a line feed, and one carriage return before the line feed belongs to the ending.  Text
after the last line feed is a line of its own, kept as it is.
-/

namespace DaemonKeeper.Text

/-- Drops one carriage return at the end. -/
def dropReturn (line : List Char) : List Char :=
  if line.getLast? = some '\r' then line.dropLast else line

/-- The lines among the pieces between line feeds: all but the last piece ended at a line feed. -/
def linesOfPieces : List (List Char) → List (List Char)
  | [] => []
  | [last] => if last.isEmpty then [] else [last]
  | line :: rest => dropReturn line :: linesOfPieces rest

/-- The lines of a text. -/
def lines (cs : List Char) : List (List Char) := linesOfPieces (pieces '\n' cs)

/-- The lines of captured bytes. -/
def splitLines (bs : List UInt8) : List String :=
  (lines (decodeLossy bs)).map String.ofList

end DaemonKeeper.Text
