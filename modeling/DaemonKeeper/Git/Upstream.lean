set_option autoImplicit false

/-!
# Version-control adapter: how a branch stands to its remote (SPEC §2, §3.2)

The four states of a tracked branch and the classification behind `upstream`.  Three commits decide:
the two heads and their merge base.
-/

namespace DaemonKeeper.Git

/-- How a local branch stands to its remote counterpart. -/
inductive Upstream where
  /-- Both are at the same commit. -/
  | upToDate
  /-- The remote is ahead. -/
  | pullNeeded
  /-- The local branch is ahead. -/
  | pushNeeded
  /-- Both have commits that the other lacks. -/
  | diverged
  deriving DecidableEq, Repr

namespace Upstream

/-- From the local head, the remote head and their merge base. -/
def classify (localHead remoteHead mergeBase : String) : Upstream :=
  if localHead = remoteHead then .upToDate
  else if localHead = mergeBase then .pullNeeded
  else if remoteHead = mergeBase then .pushNeeded
  else .diverged

/-- How it is shown. -/
def name : Upstream → String
  | .upToDate => "UpToDate"
  | .pullNeeded => "PullNeeded"
  | .pushNeeded => "PushNeeded"
  | .diverged => "Diverged"

end Upstream

end DaemonKeeper.Git
