import DaemonKeeper.Proofs.ProcessRuns
import DaemonKeeper.Supervisor
set_option autoImplicit false

/-!
# What the steps of a supervisor can do to a daemon (SPEC §3.5)

A build is a clone or an update followed by the recipe, and it changes the binary that the daemon
knows; starting, asking and stopping change the process and nothing else.  As for processes, each
step is opened once, here.
-/

namespace DaemonKeeper

variable {d d' : Daemon} {trace : List Exchange} {buildName : String}

namespace Daemon

/-! ## Builds -/

/-- The daemon after its build has left `path`. -/
def withBinary (d : Daemon) (path : Path) : Daemon := { d with executable := some path }

/-- A build that succeeds has run the recipe, and the daemon has what it left. -/
theorem runs_buildBinary_of_build (h : Action.Runs (d.build buildName) trace (.ok (), d')) :
    ∃ path, Action.Runs (d.buildBinary buildName).attempt trace (.ok path) ∧
      d' = d.withBinary path := by
  obtain ⟨recipe, last, outcome, rfl, hrecipe, hend⟩ := Action.runs_bind_iff.mp h
  cases outcome with
  | error fault =>
    obtain ⟨-, hfault, -⟩ := Action.runs_pure_pair_iff.mp hend
    cases hfault
  | ok path =>
    obtain ⟨rfl, -, rfl⟩ := Action.runs_pure_pair_iff.mp hend
    exact ⟨path, by simpa using hrecipe, rfl⟩

/-- A build with an update of the sources before it, with its trace and the binary it leaves. -/
structure Refreshed (d : Daemon) (buildName : String) (update recipe : List Exchange)
    (path : Path) : Prop where
  updated : Action.Runs d.cloneSources.attempt update (.ok ())
  built : Action.Runs (d.buildBinary buildName).attempt recipe (.ok path)

/-- A refresh that succeeds updates the sources, then runs the recipe. -/
theorem refreshed_of_runs_refresh (h : Action.Runs (d.refresh buildName) trace (.ok (), d')) :
    ∃ update recipe path, trace = update ++ recipe ∧
      Refreshed d buildName update recipe path ∧ d' = d.withBinary path := by
  obtain ⟨update, recipe, outcome, rfl, hupdate, hbuild⟩ := Action.runs_bind_iff.mp h
  cases outcome with
  | error fault =>
    obtain ⟨-, hfault, -⟩ := Action.runs_pure_pair_iff.mp hbuild
    cases hfault
  | ok =>
    obtain ⟨path, hrecipe, rfl⟩ := runs_buildBinary_of_build hbuild
    exact ⟨update, recipe, path, rfl, ⟨hupdate, hrecipe⟩, rfl⟩

/-! ## The process -/

/-- Asking for the process id is one query of the process. -/
theorem asked_of_runs_pid {pid : Int} (h : Action.Runs d.pid trace (pid, d')) :
    ∃ running p, ManagedProcess.Asked d.process trace running p ∧ d' = d.withProcess p := by
  obtain ⟨query, last, ⟨told, p⟩, rfl, hquery, hend⟩ := Action.runs_bind_iff.mp h
  obtain ⟨rfl, rfl, rfl⟩ := Action.runs_pure_pair_iff.mp hend
  obtain ⟨⟨running, hasked⟩, -⟩ := ManagedProcess.asked_of_runs_pid hquery
  exact ⟨running, p, by simpa using hasked, rfl⟩

/-- Stopping a daemon is stopping its process. -/
theorem stopped_of_runs_stop {outcome : Except Fault Unit}
    (h : Action.Runs d.stop trace (outcome, d')) :
    ∃ p, ManagedProcess.Stopped d.process trace outcome p ∧ d' = d.withProcess p := by
  obtain ⟨stopping, last, ⟨answer, p⟩, rfl, hstop, hend⟩ := Action.runs_bind_iff.mp h
  obtain ⟨rfl, rfl, rfl⟩ := Action.runs_pure_pair_iff.mp hend
  exact ⟨p, by simpa using ManagedProcess.stopped_of_runs_stop hstop, rfl⟩

end Daemon

namespace Supervisor

/-! ## Steps of a cycle -/

/-- The turn of a daemon in a pass that starts what is not running, with its trace and the process
after it. -/
inductive Revived (d : Daemon) : List Exchange → ManagedProcess → Prop where
  /-- It is running, and is left alone. -/
  | running {query : List Exchange} {p : ManagedProcess} :
    ManagedProcess.Asked d.process query true p → Revived d query p
  /-- It is not running; it is started on its binary and asked for its process id. -/
  | started {query start again : List Exchange} {running : Bool} {path : Path}
    {p q r : ManagedProcess} :
    ManagedProcess.Asked d.process query false p → d.executable = some path →
    ManagedProcess.Started p path d.arguments start (.ok ()) q →
    ManagedProcess.Asked q again running r → Revived d (query ++ (start ++ again)) r

/-- A daemon whose turn succeeds is running or was started. -/
theorem revived_of_runs_startDaemon (h : Action.Runs (startDaemon d) trace (.ok (), d')) :
    ∃ p, Revived d trace p ∧ d' = d.withProcess p := by
  obtain ⟨ensuring, telling, ⟨outcome, d₁⟩, rfl, hensure, htell⟩ := Action.runs_bind_iff.mp h
  obtain ⟨asking, starting, ⟨running, d₂⟩, rfl, hask, hstart⟩ := Action.runs_bind_iff.mp hensure
  obtain ⟨query, last, ⟨answer, p⟩, rfl, hquery, hend⟩ := Action.runs_bind_iff.mp hask
  obtain ⟨rfl, rfl, rfl⟩ := Action.runs_pure_pair_iff.mp hend
  have hasked := ManagedProcess.asked_of_runs_isRunning hquery
  cases running with
  | true =>
    obtain ⟨rfl, rfl, rfl⟩ := Action.runs_pure_pair_iff.mp hstart
    obtain ⟨rfl, -, rfl⟩ := Action.runs_pure_pair_iff.mp htell
    exact ⟨p, .running (by simpa using hasked), rfl⟩
  | false =>
    simp only [Bool.false_eq_true, if_false] at hstart
    split at hstart
    · obtain ⟨-, rfl, -⟩ := Action.runs_pure_pair_iff.mp hstart
      obtain ⟨-, hfault, -⟩ := Action.runs_pure_pair_iff.mp htell
      cases hfault
    · rename_i path hpath
      obtain ⟨start, last, ⟨answer, q⟩, rfl, hspawn, hend⟩ := Action.runs_bind_iff.mp hstart
      obtain ⟨rfl, rfl, rfl⟩ := Action.runs_pure_pair_iff.mp hend
      cases answer with
      | error fault =>
        obtain ⟨-, hfault, -⟩ := Action.runs_pure_pair_iff.mp htell
        cases hfault
      | ok =>
        obtain ⟨again, last, ⟨pid, d₃⟩, rfl, hpid, hend⟩ := Action.runs_bind_iff.mp htell
        obtain ⟨rfl, -, rfl⟩ := Action.runs_pure_pair_iff.mp hend
        obtain ⟨still, r, hagain, rfl⟩ := Daemon.asked_of_runs_pid hpid
        have hstarted := ManagedProcess.started_of_runs_start hspawn
        refine ⟨r, ?_, rfl⟩
        have hrevived := Revived.started hasked hpath hstarted hagain
        simpa using hrevived

/-- The turn of a daemon in a report is one query of its process. -/
theorem asked_of_runs_reportDaemon {outcome : Except Fault Int}
    (h : Action.Runs (reportDaemon d) trace (outcome, d')) :
    ∃ running p, ManagedProcess.Asked d.process trace running p ∧ d' = d.withProcess p := by
  obtain ⟨query, last, ⟨pid, d₁⟩, rfl, hquery, hend⟩ := Action.runs_bind_iff.mp h
  obtain ⟨rfl, -, rfl⟩ := Action.runs_pure_pair_iff.mp hend
  rw [List.append_nil]
  exact Daemon.asked_of_runs_pid hquery

/-- The turn of a daemon in a pass that rebuilds what has changed, with its trace, the flag it is
given and the daemon after it. -/
inductive Renewed (buildName : String) (d : Daemon) : List Exchange → Bool → Daemon → Prop where
  /-- Nothing is new upstream, and nothing but that was asked. -/
  | unchanged {poll : List Exchange} :
    Action.Runs d.hasUpstreamChange.attempt poll (.ok false) → Renewed buildName d poll false d
  /-- There are new commits; the sources are updated and the whole recipe is run. -/
  | rebuilt {poll update recipe : List Exchange} {path : Path} :
    Action.Runs d.hasUpstreamChange.attempt poll (.ok true) →
    Daemon.Refreshed d buildName update recipe path →
    Renewed buildName d (poll ++ (update ++ recipe)) true (d.withBinary path)

/-- A daemon whose turn succeeds was left alone or rebuilt. -/
theorem renewed_of_runs_rebuildDaemon {flag : Bool}
    (h : Action.Runs (rebuildDaemon buildName d) trace (.ok flag, d')) :
    Renewed buildName d trace flag d' := by
  obtain ⟨poll, rest, outcome, rfl, hpoll, hrest⟩ := Action.runs_bind_iff.mp h
  rcases outcome with fault | changed
  · obtain ⟨-, hfault, -⟩ := Action.runs_pure_pair_iff.mp hrest
    cases hfault
  cases changed with
  | false =>
    obtain ⟨rfl, hflag, rfl⟩ := Action.runs_pure_pair_iff.mp hrest
    cases hflag
    rw [List.append_nil]
    exact .unchanged hpoll
  | true =>
    obtain ⟨build, last, ⟨answer, d₁⟩, rfl, hbuild, hend⟩ := Action.runs_bind_iff.mp hrest
    obtain ⟨rfl, hflag, rfl⟩ := Action.runs_pure_pair_iff.mp hend
    cases answer with
    | error fault => cases hflag
    | ok =>
      cases hflag
      obtain ⟨update, recipe, path, rfl, hrefreshed, rfl⟩ := Daemon.refreshed_of_runs_refresh hbuild
      rw [List.append_nil]
      exact .rebuilt hpoll hrefreshed

end Supervisor

end DaemonKeeper
