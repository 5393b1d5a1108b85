import DaemonKeeper.Action
import DaemonKeeper.Git.Upstream
import DaemonKeeper.Text.Blank
set_option autoImplicit false

/-!
# Version-control adapter: one tracked repository (SPEC §2, §3.2)

A repository is where its checkout lies and where it comes from.  Everything else about it is asked
of the `git` command: `updateRemote`, `headCommit`, `mergeBase`, `upstream` and `hasUpstreamChange`
for the comparison with the remote, `clone`, `pull` and `checkout` for the sources, `currentBranch`
and `probe` for what is there.  All run in the checkout, except that a clone runs in the parent
directory.

A probe keeps the reason for which there is no usable clone; `isCloned` only says whether there is
one.
-/

namespace DaemonKeeper.Git

/-- A repository with its tracked branch. -/
structure Repository where
  parent : Path
  name : String
  branch : String
  host : String
  organization : String
  deriving DecidableEq, Repr

/-- Why a repository is not a usable clone. -/
inductive ProbeFault where
  /-- There is no such directory. -/
  | missing (directory : Path)
  /-- The current branch cannot be told. -/
  | unusable (cause : Fault)
  deriving DecidableEq, Repr

/-- The name after the star at the front of a line, if it marks the current branch. -/
def starredName (line : String) : Option String :=
  match line.toList with
  | '*' :: rest =>
    let word := (rest.dropWhile Text.isBlank).takeWhile fun c => !Text.isBlank c
    if (rest.head?.map Text.isBlank).getD false && !word.isEmpty then some (String.ofList word)
    else none
  | _ => none

/-- The only line of an output, without the white space around it. -/
def singleLine (reference : String) (output : Output) : Except Fault String :=
  match output.stdout with
  | [line] => .ok (Text.trim line)
  | lines => .error (.ambiguousReference reference lines.length)

namespace Repository

/-- The checkout. -/
def directory (r : Repository) : Path := r.parent.join r.name

/-- Where it is cloned from. -/
def remoteUrl (r : Repository) : String :=
  "git@" ++ r.host ++ ":" ++ r.organization ++ "/" ++ r.name ++ ".git"

/-- The remote counterpart of the tracked branch. -/
def remoteBranch (r : Repository) : String := "origin/" ++ r.branch

/-- Runs git in the checkout. -/
def git (r : Repository) (arguments : List String) : Task Output :=
  Task.run r.directory ⟨"git", arguments⟩

/-- Runs git in the checkout for its effect. -/
def gitEffect (r : Repository) (arguments : List String) : Task Unit := do
  let _ ← r.git arguments
  return ()

/-- Fetches what the remotes have. -/
def updateRemote (r : Repository) : Task Unit := r.gitEffect ["remote", "update"]

/-- The commit that a reference names. -/
def headCommit (r : Repository) (reference : String) : Task String := do
  let output ← r.git ["rev-parse", reference]
  ExceptT.mk (.done (singleLine reference output))

/-- The nearest common ancestor of two references. -/
def mergeBase (r : Repository) (a b : String) : Task String := do
  let output ← r.git ["merge-base", a, b]
  ExceptT.mk (.done (singleLine ("merge-base " ++ a ++ " " ++ b) output))

/-- Fetches, and tells how the tracked branch stands to its remote counterpart. -/
def upstream (r : Repository) : Task Upstream := do
  r.updateRemote
  let localHead ← r.headCommit r.branch
  let remoteHead ← r.headCommit r.remoteBranch
  let base ← r.mergeBase r.branch r.remoteBranch
  return .classify localHead remoteHead base

/-- The remote branch has commits that a fast-forward would bring.  Diverged histories are a
fault. -/
def hasUpstreamChange (r : Repository) : Task Bool := do
  match ← r.upstream with
  | .upToDate | .pushNeeded => return false
  | .pullNeeded => return true
  | .diverged => Task.fail (.divergedHistory r.directory r.branch)

/-- Initialises and updates the submodules. -/
def updateSubmodules (r : Repository) : Task Unit := do
  r.gitEffect ["submodule", "init"]
  r.gitEffect ["submodule", "update"]

/-- Pulls the tracked branch, then updates the submodules. -/
def pull (r : Repository) : Task Unit := do
  r.gitEffect ["pull", "origin", r.branch]
  r.updateSubmodules

/-- Checks out the tracked branch. -/
def checkout (r : Repository) : Task Unit := r.gitEffect ["checkout", r.branch]

/-- The branch that is checked out. -/
def currentBranch (r : Repository) : Task String := do
  let output ← r.git ["branch"]
  match output.stdout.findSome? starredName with
  | some name => return name
  | none => Task.fail (.noCurrentBranch r.directory)

/-- The current branch of a usable clone, or why there is none. -/
def probe (r : Repository) : Action (Except ProbeFault String) := do
  if !(← Action.request (.isDirectory r.directory)) then
    return .error (.missing r.directory)
  return (← r.currentBranch.attempt).mapError .unusable

/-- There is a usable clone. -/
def isCloned (r : Repository) : Action Bool := do
  match ← r.probe with
  | .ok _ => return true
  | .error _ => return false

/-- Clones the repository, or pulls if there is a usable clone. -/
def clone (r : Repository) : Task Unit := do
  if ← ExceptT.lift r.isCloned then r.pull
  else
    Task.ofIo (Action.request (.createDirectory r.parent))
    let _ ← Task.run r.parent ⟨"git", ["clone", r.remoteUrl]⟩
    r.updateSubmodules

end Repository

end DaemonKeeper.Git
