import DaemonKeeper.Proofs.DaemonRuns
import DaemonKeeper.Proofs.PartyLogs
import DaemonKeeper.Proofs.TaskRequests
import Mathlib.Data.List.Induction
set_option autoImplicit false

/-!
# The last start of a child

Which binary a child runs is told by the exchange that has started it: by the last one in which a
daemon has started anything, and, where process ids are not handed out twice at a time, by the last
one in the whole run in which its process id was handed out.  The child that a daemon holds was
started last, from the binary that the daemon knows, unless a build in between has made the two
differ.
-/

namespace DaemonKeeper

/-! ## Starts -/

/-- The binary that the exchange has started, with the child. -/
def Exchange.started? : Exchange → Option (Path × Nat)
  | ⟨.spawn executable _, .ok pid⟩ => some (executable, pid)
  | _ => none

/-- The last child that was started, with its binary. -/
def lastStart (trace : List Exchange) : Option (Path × Nat) :=
  (trace.filterMap Exchange.started?).getLast?

/-- An exchange that brings no child into being starts none. -/
theorem Exchange.started?_eq_none {e : Exchange} (h : e.spawned? = none) : e.started? = none := by
  obtain ⟨request, reply⟩ := e
  cases request with
  | spawn executable arguments =>
    cases reply with
    | ok pid => cases h
    | error cause => rfl
  | _ => rfl

/-- A start hands out the process id of the child, and that is what handing one out is. -/
theorem Exchange.spawned?_of_started? {e : Exchange} {path : Path} {pid : Nat}
    (h : e.started? = some (path, pid)) : e.spawned? = some pid := by
  obtain ⟨request, reply⟩ := e
  cases request with
  | spawn executable arguments =>
    cases reply with
    | ok pid' =>
      cases h
      rfl
    | error cause => cases h
  | _ => cases h

theorem Exchange.started?_of_spawned? {e : Exchange} {pid : Nat} (h : e.spawned? = some pid) :
    ∃ path, e.started? = some (path, pid) := by
  obtain ⟨request, reply⟩ := e
  cases request with
  | spawn executable arguments =>
    cases reply with
    | ok pid' =>
      cases h
      exact ⟨executable, rfl⟩
    | error cause => cases h
  | _ => cases h

/-- Where nothing is started, the last start stays what it was. -/
theorem lastStart_append {own trace : List Exchange} (h : ∀ e ∈ trace, e.spawned? = none) :
    lastStart (own ++ trace) = lastStart own := by
  have hnone : trace.filterMap Exchange.started? = [] :=
    List.filterMap_eq_nil_iff.mpr fun e he => Exchange.started?_eq_none (h e he)
  unfold lastStart
  rw [List.filterMap_append, hnone, List.append_nil]

/-- A child that was just started is the last one. -/
theorem lastStart_spawn {own : List Exchange} {executable : Path} {arguments : List String}
    {pid : Nat} :
    lastStart (own ++ [⟨.spawn executable arguments, .ok pid⟩]) = some (executable, pid) := by
  unfold lastStart
  rw [List.filterMap_append]
  exact List.getLast?_concat

/-! ## The binary of a process id -/

/-- The binary that was started when the process id was last handed out. -/
def binaryOf (pid : Nat) (trace : List Exchange) : Option Path :=
  ((trace.filterMap Exchange.started?).filter fun start => start.2 = pid).getLast?.map Prod.fst

/-- The start that has handed out the process id tells the binary. -/
theorem binaryOf_concat_of_started? {trace : List Exchange} {e : Exchange} {path : Path} {pid : Nat}
    (h : e.started? = some (path, pid)) : binaryOf pid (trace ++ [e]) = some path := by
  unfold binaryOf
  rw [List.filterMap_append, List.filterMap_cons_some h, List.filterMap_nil, List.filter_append,
    List.filter_cons_of_pos (by simp), List.filter_nil, List.getLast?_concat]
  rfl

/-- An exchange that does not hand out the process id tells nothing. -/
theorem binaryOf_concat_of_ne {trace : List Exchange} {e : Exchange} {pid : Nat}
    (h : e.spawned? ≠ some pid) : binaryOf pid (trace ++ [e]) = binaryOf pid trace := by
  have hnone : ([e].filterMap Exchange.started?).filter (fun start => start.2 = pid) = [] := by
    refine List.filter_eq_nil_iff.mpr fun start hstart => ?_
    obtain ⟨e', he', hstarted⟩ := List.mem_filterMap.mp hstart
    obtain rfl := List.mem_singleton.mp he'
    obtain ⟨path, pid'⟩ := start
    rw [Exchange.spawned?_of_started? hstarted] at h
    simpa using h
  unfold binaryOf
  rw [List.filterMap_append, List.filter_append, hnone, List.append_nil]

/-- The last start of all is that of its process id. -/
theorem binaryOf_of_lastStart {trace : List Exchange} {path : Path} {pid : Nat}
    (h : lastStart trace = some (path, pid)) : binaryOf pid trace = some path := by
  obtain ⟨starts, hstarts⟩ := List.getLast?_eq_some_iff.mp h
  unfold binaryOf
  rw [hstarts, List.filter_append, List.filter_cons_of_pos (by simp), List.filter_nil,
    List.getLast?_concat]
  rfl

open Log ManagedProcess in
/-- While a child is held, nobody else is given its process id: the binary it runs is seen in the
exchanges of its holder alone. -/
theorem binaryOf_own {table : Holdings} {out : List Nat} {log : Log} {party : Party} {pid : Nat}
    (hheldOnce : HeldOnce table out) (hkept : Kept table log)
    (hfresh : FreshPids out log.trace) (hheld : table.after log party = some pid) :
    binaryOf pid log.trace = binaryOf pid (log.own party) := by
  induction log using List.reverseRecOn with
  | nil => rfl
  | append_singleton log entry ih =>
    obtain ⟨other, e⟩ := entry
    obtain ⟨hkept, hlast⟩ := Kept.append_iff.mp hkept
    obtain ⟨hproper, -⟩ := Kept.cons_iff.mp hlast
    rw [trace_append, freshPids_append] at hfresh
    obtain ⟨hfresh, hnew, -⟩ := hfresh
    have hlisted := hheldOnce.after hkept hfresh
    have htrace : trace (log ++ [(other, e)]) = trace log ++ [e] := trace_append log _
    rw [Holdings.after_append, Holdings.after_cons, Holdings.after_nil] at hheld
    unfold Holdings.exchange at hheld
    rw [htrace, own_append]
    by_cases hother : other = party
    · subst hother
      rw [Function.update_self] at hheld
      rw [own_cons_self, own_nil]
      rcases hproper.cases with ⟨pid', hspawned, -, -, hholds⟩ | ⟨_, -, -, -, hholds⟩ |
        ⟨hspawned, -, hholds⟩
      · obtain rfl : pid' = pid := Option.some.inj (hholds.symm.trans hheld)
        obtain ⟨path, hstarted⟩ := Exchange.started?_of_spawned? hspawned
        rw [binaryOf_concat_of_started? hstarted, binaryOf_concat_of_started? hstarted]
      · rw [hholds] at hheld
        cases hheld
      · rw [hholds] at hheld
        rw [binaryOf_concat_of_ne (by rw [hspawned]; nofun),
          binaryOf_concat_of_ne (by rw [hspawned]; nofun)]
        exact ih hkept hfresh hheld
    · -- The process id is outstanding, so it is not handed out to anybody else.
      rw [Function.update_of_ne (Ne.symm hother)] at hheld
      have hne : e.spawned? ≠ some pid := fun hspawned =>
        hnew pid hspawned (hlisted.listed party pid hheld)
      rw [own_cons_of_ne hother, own_nil, List.append_nil, binaryOf_concat_of_ne hne]
      exact ih hkept hfresh hheld

/-! ## Exchanges that are not about processes -/

/-- An exchange that is not about processes brings no child into being. -/
theorem Exchange.spawned?_eq_none_of_aboutProcess {e : Exchange}
    (h : e.request.aboutProcess = false) : e.spawned? = none := by
  obtain ⟨request, reply⟩ := e
  cases request with
  | spawn executable arguments => cases h
  | _ => rfl

namespace Supervisor

open ManagedProcess (Asked Started)

variable {d : Daemon} {own turn : List Exchange}

/-! ## Turns of a daemon -/

/-- Updating and building ask nothing about processes. -/
theorem processFree_of_refreshed {buildName : String} {update recipe : List Exchange} {path : Path}
    (h : Daemon.Refreshed d buildName update recipe path) :
    ∀ e ∈ update ++ recipe, e.request.aboutProcess = false := by
  intro e he
  rcases List.mem_append.mp he with he | he
  · exact Action.Only.of_runs d.project.processFree_cloneSources h.updated e he
  · exact Action.Only.of_runs (d.processFree_buildBinary buildName) h.built e he

/-- Neither does a poll. -/
theorem processFree_of_poll {poll : List Exchange} {outcome : Except Fault Bool}
    (h : Action.Runs d.hasUpstreamChange.attempt poll outcome) :
    ∀ e ∈ poll, e.request.aboutProcess = false :=
  Action.Only.of_runs d.project.processFree_hasUpstreamChange h

/-- A child that is held is queried first, and nothing more is done unless it has ended. -/
theorem Revived.of_child {p : ManagedProcess} {pid : Nat} (h : Revived d turn p)
    (hchild : d.process.child = some pid) :
    (∃ reply, reply ≠ ChildStatus.exited ∧ turn = [⟨.status pid, reply⟩] ∧
      d.withProcess p = d) ∨
    ∃ rest, turn = ⟨.status pid, .exited⟩ :: rest := by
  cases h with
  | running hasked =>
    obtain ⟨reply, rfl, hreply, -⟩ := hasked.of_child hchild
    obtain rfl := hasked.eq_of_running
    exact .inl ⟨reply, hreply.mp rfl, rfl, rfl⟩
  | started hasked _ _ _ =>
    obtain ⟨reply, rfl, hreply, -⟩ := hasked.of_child hchild
    obtain rfl : reply = .exited := by simpa using hreply
    exact .inr ⟨_, rfl⟩

/-! ## The held child and the known binary -/

/-- The child that is held, if any, was started last, from the binary that the daemon knows. -/
def Settled (own : List Exchange) (d : Daemon) : Prop :=
  ∀ pid, d.process.child = some pid →
    ∃ path, d.executable = some path ∧ lastStart own = some (path, pid)

/-- Where nothing is held, nothing is out of date. -/
theorem settled_of_child_eq_none (h : d.process.child = none) : Settled own d := by
  intro pid hpid
  rw [h] at hpid
  cases hpid

/-- Where nothing is started, a daemon stays settled. -/
theorem Settled.append {trace : List Exchange} (h : Settled own d)
    (htrace : ∀ e ∈ trace, e.spawned? = none) : Settled (own ++ trace) d := by
  unfold Settled
  rw [lastStart_append htrace]
  exact h

/-- A query keeps the child or finds that it has ended. -/
theorem Settled.asked {query : List Exchange} {running : Bool} {p : ManagedProcess}
    (h : Settled own d) (hasked : Asked d.process query running p) :
    Settled (own ++ query) (d.withProcess p) := by
  cases running with
  | false => exact settled_of_child_eq_none hasked.child_eq_none
  | true =>
    obtain rfl := hasked.eq_of_running
    exact h.append hasked.spawned?_eq_none

/-- A start that succeeds starts the child that is held after it. -/
theorem lastStart_of_started {executable : Path} {arguments : List String} {start : List Exchange}
    {p q : ManagedProcess} (h : Started p executable arguments start (.ok ()) q)
    (own : List Exchange) :
    ∃ pid, q.child = some pid ∧ lastStart (own ++ start) = some (executable, pid) := by
  cases h with
  | @spawned first _ pid _ =>
    refine ⟨pid, rfl, ?_⟩
    have hlast : lastStart ((own ++ ⟨.isExecutable executable, true⟩ :: first) ++
        [⟨.spawn executable arguments, .ok pid⟩]) = some (executable, pid) := lastStart_spawn
    simpa using hlast

/-- A daemon that is running is left as it is, and one that is not is started on the binary it
knows. -/
theorem Settled.revived {p : ManagedProcess} (h : Settled own d) (hrevived : Revived d turn p) :
    Settled (own ++ turn) (d.withProcess p) := by
  cases hrevived with
  | running hasked => exact h.asked hasked
  | @started query start again running path _ q _ _ hpath hstarted hagain =>
    obtain ⟨pid, hchild, hlast⟩ := lastStart_of_started hstarted (own ++ query)
    have hstart : Settled (own ++ query ++ start) (d.withProcess q) := by
      intro held hheld
      obtain rfl : pid = held := Option.some.inj (hchild.symm.trans hheld)
      exact ⟨path, hpath, hlast⟩
    have hend := hstart.asked hagain
    rw [List.append_assoc, List.append_assoc] at hend
    exact hend

end Supervisor

end DaemonKeeper
