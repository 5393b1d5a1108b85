import DaemonKeeper.Action
import DaemonKeeper.Config.Validate
set_option autoImplicit false

/-!
# Configuration: loading a file (SPEC §4.1)

The file is read whole, its sections are read, and only then validated.
-/

namespace DaemonKeeper

/-- The file that is read when none is named. -/
def Config.defaultPath : Path := ⟨"Buildwatch.toml"⟩

/-- Reads the sections of a file without asking whether they fit together. -/
def Sections.load (path : Path) : Task Sections := do
  let bytes ← Task.ofIo (Action.request (.readFile path))
  ExceptT.mk (.done (Sections.ofBytes bytes))

/-- Reads and validates a file. -/
def Config.load (path : Path) : Task Config := do
  let sections ← Sections.load path
  ExceptT.mk (.done sections.validate)

end DaemonKeeper
