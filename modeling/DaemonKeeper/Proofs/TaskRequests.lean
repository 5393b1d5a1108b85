import DaemonKeeper.Daemon
import DaemonKeeper.Proofs.Trace
set_option autoImplicit false

/-!
# What the tasks of a build ask for

A dialogue can be held to a kind of request, whatever the machine replies.  Fetching, building and
checking what was built ask about files and commands only: no child process is started, asked for,
signalled or killed by them.
-/

namespace DaemonKeeper

variable {α β : Type} {P : Request → Prop}

namespace Action

/-- Whatever the replies are, only requests with the property are made. -/
def Only (P : Request → Prop) : Action α → Prop
  | .done _ => True
  | .ask q k => P q ∧ ∀ reply, Only P (k reply)

/-- Two restrained dialogues in turn are restrained. -/
theorem Only.bind {x : Action α} {f : α → Action β} (hx : Only P x) (hf : ∀ a, Only P (f a)) :
    Only P (x >>= f) := by
  induction x with
  | done a => exact hf a
  | ask q k ih => exact ⟨hx.1, fun reply => ih reply (hx.2 reply)⟩

theorem Only.request {q : Request} (hq : P q) : Only P (Action.request q) := ⟨hq, fun _ => trivial⟩

/-- A dialogue that is held to one kind of request is held to every wider one. -/
theorem Only.mono {Q : Request → Prop} {x : Action α} (hx : Only P x) (h : ∀ q, P q → Q q) :
    Only Q x := by
  induction x with
  | done a => trivial
  | ask q k ih => exact ⟨h q hx.1, fun reply => ih reply (hx.2 reply)⟩

/-- Every exchange of a run is of that kind. -/
theorem Only.of_runs {x : Action α} {trace : List Exchange} {a : α} (hx : Only P x)
    (h : Runs x trace a) : ∀ e ∈ trace, P e.request := by
  induction h with
  | done a => nofun
  | ask reply _ ih =>
    intro e he
    rcases List.mem_cons.mp he with rfl | he
    · exact hx.1
    · exact ih (hx.2 reply) e he

end Action

namespace Task

/-- The same for a task. -/
def Only (P : Request → Prop) (t : Task α) : Prop := Action.Only P t.attempt

theorem Only.mono {Q : Request → Prop} {t : Task α} (ht : Only P t) (h : ∀ q, P q → Q q) :
    Only Q t :=
  Action.Only.mono ht h

theorem Only.pure (a : α) : Only P (Pure.pure a : Task α) := trivial

theorem Only.ofOutcome (outcome : Except Fault α) :
    Only P (ExceptT.mk (.done outcome) : Task α) := trivial

theorem Only.fail (fault : Fault) : Only P (Task.fail fault : Task α) := trivial

/-- Two restrained tasks in turn are restrained, also if the first fails. -/
theorem Only.bind {t : Task α} {f : α → Task β} (ht : Only P t) (hf : ∀ a, Only P (f a)) :
    Only P (t >>= f) := by
  unfold Only attempt
  rw [ExceptT.run_bind]
  refine Action.Only.bind ht fun outcome => ?_
  cases outcome with
  | error fault => trivial
  | ok a => exact hf a

/-- A dialogue that cannot fail is restrained as a task if it is on its own. -/
theorem Only.lift {x : Action α} (hx : Action.Only P x) : Only P (ExceptT.lift x : Task α) := by
  unfold Only attempt
  rw [ExceptT.run_lift, map_eq_pure_bind]
  exact hx.bind fun _ => trivial

theorem Only.request {q : Request} (hq : P q) : Only P (Task.request q) :=
  Only.lift (.request hq)

theorem Only.ofIo {x : Action (Except IoFault α)} (hx : Action.Only P x) : Only P (Task.ofIo x) :=
  hx.bind fun _ => trivial

theorem Only.run {directory : Path} {command : Command} (h : P (.run directory command)) :
    Only P (Task.run directory command) :=
  Action.Only.request h

/-- The same where it depends on a condition. -/
theorem Only.ite {c : Prop} [Decidable c] {t u : Task α} (ht : Only P t) (hu : Only P u) :
    Only P (if c then t else u) := by
  split
  · exact ht
  · exact hu

end Task

/-- The request is about a child process. -/
def Request.aboutProcess : Request → Bool
  | .spawn _ _ => true
  | .status _ => true
  | .signal _ _ => true
  | .kill _ => true
  | _ => false

/-- The task has nothing to do with child processes. -/
abbrev Task.ProcessFree (t : Task α) : Prop := t.Only fun q => q.aboutProcess = false

/-! ## Git -/

namespace Git.Repository

variable (r : Repository)

/-- What is asked for in a clone, or in a pull where there is one already. -/
inductive CloneRequest : Request → Prop where
  | probe : CloneRequest (.isDirectory r.directory)
  | branch : CloneRequest (.run r.directory ⟨"git", ["branch"]⟩)
  | pull : CloneRequest (.run r.directory ⟨"git", ["pull", "origin", r.branch]⟩)
  | create : CloneRequest (.createDirectory r.parent)
  | clone : CloneRequest (.run r.parent ⟨"git", ["clone", r.remoteUrl]⟩)
  | initSubmodules : CloneRequest (.run r.directory ⟨"git", ["submodule", "init"]⟩)
  | updateSubmodules : CloneRequest (.run r.directory ⟨"git", ["submodule", "update"]⟩)

/-- What is asked for in a poll. -/
inductive PollRequest : Request → Prop where
  | fetch : PollRequest (.run r.directory ⟨"git", ["remote", "update"]⟩)
  | lookUp (reference : String) : PollRequest (.run r.directory ⟨"git", ["rev-parse", reference]⟩)
  | mergeBase (a b : String) : PollRequest (.run r.directory ⟨"git", ["merge-base", a, b]⟩)

variable {r}

theorem only_git {arguments : List String} (h : P (.run r.directory ⟨"git", arguments⟩)) :
    (r.git arguments).Only P :=
  .run h

theorem only_gitEffect {arguments : List String} (h : P (.run r.directory ⟨"git", arguments⟩)) :
    (r.gitEffect arguments).Only P :=
  (only_git h).bind fun _ => .pure ()

/-- Reading a head is one command. -/
theorem only_headCommit {reference : String}
    (h : P (.run r.directory ⟨"git", ["rev-parse", reference]⟩)) :
    (r.headCommit reference).Only P :=
  (only_git h).bind fun _ => .ofOutcome _

/-- So is asking for a merge base. -/
theorem only_mergeBase {a b : String} (h : P (.run r.directory ⟨"git", ["merge-base", a, b]⟩)) :
    (r.mergeBase a b).Only P :=
  (only_git h).bind fun _ => .ofOutcome _

/-- What was told is judged without asking again. -/
theorem only_judge (upstream : Upstream) : Task.Only P (match upstream with
    | .upToDate | .pushNeeded => return false
    | .pullNeeded => return true
    | .diverged => Task.fail (.divergedHistory r.directory r.branch)) := by
  cases upstream with
  | upToDate => exact .pure false
  | pullNeeded => exact .pure true
  | pushNeeded => exact .pure false
  | diverged => exact .fail _

/-- A poll fetches and looks up. -/
theorem only_hasUpstreamChange : r.hasUpstreamChange.Only r.PollRequest := by
  have hupstream : r.upstream.Only r.PollRequest := by
    refine (only_gitEffect .fetch).bind fun _ => ?_
    refine (only_headCommit (.lookUp _)).bind fun _ => ?_
    refine (only_headCommit (.lookUp _)).bind fun _ => ?_
    exact (only_mergeBase (.mergeBase _ _)).bind fun _ => .pure _
  exact hupstream.bind only_judge

theorem only_updateSubmodules : r.updateSubmodules.Only r.CloneRequest :=
  (only_gitEffect .initSubmodules).bind fun _ => only_gitEffect .updateSubmodules

/-- Reading the branch is one command. -/
theorem only_currentBranch : r.currentBranch.Only r.CloneRequest := by
  refine (only_git .branch).bind fun output => ?_
  split
  · exact .pure _
  · exact .fail _

/-- Looking for a clone asks for the directory, and for the branch in it. -/
theorem only_isCloned : Task.Only r.CloneRequest (ExceptT.lift r.isCloned) := by
  refine .lift (.bind (.bind (.request .probe) fun found => ?_) fun probe => ?_)
  · cases found with
    | false => trivial
    | true => exact Action.Only.bind only_currentBranch fun _ => trivial
  · cases probe <;> trivial

/-- A clone pulls, or clones where there is none. -/
theorem only_clone : r.clone.Only r.CloneRequest := by
  refine only_isCloned.bind fun cloned => ?_
  cases cloned with
  | true => exact (only_gitEffect .pull).bind fun _ => only_updateSubmodules
  | false =>
    refine .bind (.ofIo (.request .create)) fun _ => ?_
    exact .bind (.run .clone) fun _ => only_updateSubmodules

end Git.Repository

/-! ## Recipes -/

namespace Build

theorem processFree_effect (directory : Path) (command : Command) :
    (effect directory command).ProcessFree :=
  .bind (.run rfl) fun _ => .pure ()

theorem Cmake.processFree_prepare (b : Cmake) : b.prepare.ProcessFree :=
  .bind (.ofIo (.request rfl)) fun _ => .ite (.pure ()) (.ofIo (.request rfl))

/-- A vendored library is built by commands. -/
theorem Vendored.processFree_build (b : Vendored) (buildName : String) :
    (b.build buildName).ProcessFree := by
  refine (processFree_effect _ _).bind fun _ => ?_
  refine (Cmake.processFree_prepare _).bind fun _ => ?_
  refine (processFree_effect _ _).bind fun _ => ?_
  refine (processFree_effect _ _).bind fun _ => ?_
  exact processFree_effect _ _

end Build

namespace Project

/-- So are several in order. -/
theorem processFree_buildVendored (p : Project) (buildName : String) (relatives : List String) :
    (p.buildVendored buildName relatives).ProcessFree := by
  induction relatives with
  | nil => exact .pure ()
  | cons relative rest ih => exact (Build.Vendored.processFree_build _ _).bind fun _ => ih

/-- So is the project itself, whichever its build system. -/
theorem processFree_buildSelf (p : Project) (buildName commit : String) :
    (p.buildSelf buildName commit).ProcessFree := by
  unfold buildSelf
  cases p.spec.buildSystem with
  | cmake =>
    refine (Build.Cmake.processFree_prepare _).bind fun _ => ?_
    refine (Build.processFree_effect _ _).bind fun _ => ?_
    refine (Build.processFree_effect _ _).bind fun _ => ?_
    exact .ite (Build.processFree_effect _ _) (.pure ())
  | make =>
    refine (Build.processFree_effect _ _).bind fun _ => ?_
    exact .ite (Build.processFree_effect _ _) (.pure ())

/-- The recipe of the project is a query and these two. -/
theorem processFree_buildOwn (p : Project) (buildName : String) :
    (p.buildOwn buildName).ProcessFree := by
  refine .bind (Git.Repository.only_headCommit rfl) fun commit => ?_
  refine (p.processFree_buildVendored buildName _).bind fun _ => ?_
  exact (p.processFree_buildSelf buildName commit).bind fun _ => .pure _

mutual
/-- Building a tree has nothing to do with child processes. -/
theorem processFree_build (p : Project) (buildName : String) : (p.build buildName).ProcessFree :=
  match p with
  | ⟨_, _, _, dependencies, _, _⟩ => by
    unfold build
    exact (processFree_buildAll dependencies buildName).bind fun _ => processFree_buildOwn _ _

theorem processFree_buildAll (ps : List Project) (buildName : String) :
    (buildAll ps buildName).ProcessFree :=
  match ps with
  | [] => by
    unfold buildAll
    exact .pure ()
  | p :: rest => by
    unfold buildAll
    exact (processFree_build p buildName).bind fun _ => processFree_buildAll rest buildName
end

mutual
/-- Neither has updating its sources. -/
theorem processFree_cloneSources (p : Project) : p.cloneSources.ProcessFree :=
  match p with
  | ⟨_, _, repository, dependencies, _, _⟩ => by
    unfold cloneSources
    refine (processFree_cloneAll dependencies).bind fun _ => ?_
    refine .bind (Git.Repository.only_clone.mono ?_) fun _ => Git.Repository.only_gitEffect rfl
    rintro _ ⟨⟩ <;> rfl

theorem processFree_cloneAll (ps : List Project) : (cloneAll ps).ProcessFree :=
  match ps with
  | [] => by
    unfold cloneAll
    exact .pure ()
  | p :: rest => by
    unfold cloneAll
    exact (processFree_cloneSources p).bind fun _ => processFree_cloneAll rest
end

mutual
/-- Neither has a poll. -/
theorem processFree_hasUpstreamChange (p : Project) : p.hasUpstreamChange.ProcessFree :=
  match p with
  | ⟨_, _, repository, dependencies, _, _⟩ => by
    unfold hasUpstreamChange
    refine .bind (Git.Repository.only_hasUpstreamChange.mono ?_) fun _ => ?_
    · rintro _ ⟨⟩ <;> rfl
    · exact .ite (.pure true) (processFree_anyUpstreamChange dependencies)

theorem processFree_anyUpstreamChange (ps : List Project) : (anyUpstreamChange ps).ProcessFree :=
  match ps with
  | [] => by
    unfold anyUpstreamChange
    exact .pure false
  | p :: rest => by
    unfold anyUpstreamChange
    refine (processFree_hasUpstreamChange p).bind fun _ => ?_
    exact .ite (.pure true) (processFree_anyUpstreamChange rest)
end

end Project

/-- Building a daemon and checking its binary has nothing to do with its process. -/
theorem Daemon.processFree_buildBinary (d : Daemon) (buildName : String) :
    (d.buildBinary buildName).ProcessFree := by
  refine (d.project.processFree_build buildName).bind fun output => ?_
  have hensure : (ensureExecutable (output.join d.binary.text)).ProcessFree :=
    .bind (.request rfl) fun _ => .ite (.pure ()) (.fail _)
  exact hensure.bind fun _ => .pure _

end DaemonKeeper
