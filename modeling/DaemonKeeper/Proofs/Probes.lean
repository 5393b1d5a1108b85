import DaemonKeeper.Git.Repository
import DaemonKeeper.Proofs.Trace
set_option autoImplicit false

/-!
# Probes of a checkout (SPEC §3.2)

Whether there is a usable clone is found out with one look at the directory and, if it is there, one
command.  Whatever is wrong, the answer is no: a probe never fails.
-/

namespace DaemonKeeper.Git

/-- The reply to the question for the branches names the current one. -/
def namesBranch : Except Fault Output → Bool
  | .ok output => (output.stdout.findSome? starredName).isSome
  | .error _ => false

namespace Repository

variable {r : Repository} {trace : List Exchange} {cloned : Bool}

/-- A probe of a checkout, with what is exchanged and whether there is a usable clone. -/
inductive Probed (r : Repository) : List Exchange → Bool → Prop where
  | missing : Probed r [⟨.isDirectory r.directory, false⟩] false
  | asked (reply : Except Fault Output) :
    Probed r [⟨.isDirectory r.directory, true⟩, ⟨.run r.directory ⟨"git", ["branch"]⟩, reply⟩]
      (namesBranch reply)

/-- Only if the directory is there git is asked, and only its reply tells. -/
theorem isCloned_eq (r : Repository) :
    r.isCloned = .ask (.isDirectory r.directory) fun (found : Bool) =>
      bif found then
        .ask (.run r.directory ⟨"git", ["branch"]⟩) fun reply => .done (namesBranch reply)
      else .done false := by
  refine congrArg (Action.ask _) (funext fun found => ?_)
  cases found with
  | false => rfl
  | true =>
    refine congrArg (Action.ask _) (funext fun reply => ?_)
    cases reply with
    | error fault => rfl
    | ok output =>
      simp only [Action.bind, ExceptT.bindCont, namesBranch]
      cases output.stdout.findSome? starredName <;> rfl

/-- The runs of the look for a usable clone are its probes. -/
theorem runs_isCloned_iff : Action.Runs r.isCloned trace cloned ↔ r.Probed trace cloned := by
  rw [isCloned_eq, Action.runs_ask_iff]
  constructor
  · rintro ⟨found, rest, rfl, hrest⟩
    cases found with
    | false =>
      obtain ⟨rfl, rfl⟩ := Action.runs_done_iff.mp hrest
      exact .missing
    | true =>
      obtain ⟨reply, last, rfl, hlast⟩ := Action.runs_ask_iff.mp hrest
      obtain ⟨rfl, rfl⟩ := Action.runs_done_iff.mp hlast
      exact .asked reply
  · intro h
    cases h with
    | missing => exact ⟨false, [], rfl, .done false⟩
    | asked reply => exact ⟨true, _, rfl, Action.runs_ask_iff.mpr ⟨reply, [], rfl, .done _⟩⟩

end Repository

end DaemonKeeper.Git
