import DaemonKeeper.Action
import DaemonKeeper.Config.Model
set_option autoImplicit false

/-!
# Build adapters: cmake and make (SPEC §2, §3.3)

The operations `prepare`, `configure`, `compile` and `install` of a configured build, `compile` and
`install` of a plain one, and `build` of a vendored library.  A configured build has a directory of
its own beside its sources, which `prepare` creates and marks with the commit it is built from.  A
plain build compiles where the sources are.  Installing is wrapped in the privilege prefix.
-/

namespace DaemonKeeper.Build

/-- The file in a build directory that holds the commit it was built from. -/
def commitMarker : String := "commit"

/-- Runs a command in a directory for its effect. -/
def effect (directory : Path) (command : Command) : Task Unit := do
  let _ ← Task.run directory command
  return ()

/-- `make -j` with a number of jobs. -/
def makeCommand (jobs : Nat) : Command := (Command.new "make").args ["-j", toString jobs]

/-- `make install` behind a privilege prefix. -/
def installCommand (privilegePrefix : List String) : Command :=
  ((Command.new "make").arg "install").wrapped privilegePrefix

/-- A build in a directory of its own. -/
structure Cmake where
  buildDir : Path
  sourceDir : Path
  buildType : BuildType := .release
  flags : List String := []
  /-- What the marker says; empty for no marker. -/
  commit : String := ""
  jobs : Nat := 1
  privilegePrefix : List String := []
  deriving DecidableEq, Repr

namespace Cmake

/-- The configuration command. -/
def configureCommand (b : Cmake) : Command :=
  (((Command.new "cmake").args b.flags).arg ("-DCMAKE_BUILD_TYPE=" ++ b.buildType.name)).arg
    b.sourceDir.text

/-- Creates the build directory and writes the commit marker. -/
def prepare (b : Cmake) : Task Unit := do
  Task.ofIo (Action.request (.createDirectory b.buildDir))
  if b.commit.isEmpty then return ()
  else Task.ofIo (Action.request (.writeFile (b.buildDir.join commitMarker) b.commit))

/-- Configures. -/
def configure (b : Cmake) : Task Unit := effect b.buildDir b.configureCommand

/-- Compiles. -/
def compile (b : Cmake) : Task Unit := effect b.buildDir (makeCommand b.jobs)

/-- Installs. -/
def install (b : Cmake) : Task Unit := effect b.buildDir (installCommand b.privilegePrefix)

end Cmake

/-- A build where the sources are. -/
structure Make where
  directory : Path
  jobs : Nat
  privilegePrefix : List String := []
  deriving DecidableEq, Repr

namespace Make

/-- Compiles. -/
def compile (b : Make) : Task Unit := effect b.directory (makeCommand b.jobs)

/-- Installs. -/
def install (b : Make) : Task Unit := effect b.directory (installCommand b.privilegePrefix)

end Make

/-- The directory of a vendored library that holds the code of others. -/
def thirdPartyDir : String := "third-party"

/-- A library inside a repository: the code of others in it is compiled, then it is built in release
mode and installed. -/
structure Vendored where
  directory : Path
  jobs : Nat
  privilegePrefix : List String
  deriving DecidableEq, Repr

namespace Vendored

/-- The plain build of the code of others. -/
def thirdParty (v : Vendored) : Make := { directory := v.directory.join thirdPartyDir, jobs := 1 }

/-- The build of the library itself. -/
def library (v : Vendored) (buildName : String) : Cmake :=
  { buildDir := v.directory.join buildName
    sourceDir := v.directory
    jobs := v.jobs
    privilegePrefix := v.privilegePrefix }

/-- The whole recipe of the library. -/
def build (v : Vendored) (buildName : String) : Task Unit := do
  v.thirdParty.compile
  (v.library buildName).prepare
  (v.library buildName).configure
  (v.library buildName).compile
  (v.library buildName).install

end Vendored

end DaemonKeeper.Build
