import DaemonKeeper.Process
import DaemonKeeper.Proofs.Trace
set_option autoImplicit false

/-!
# What the operations of a handle can do (SPEC §3.4)

One relation for each operation of a managed process lists its possible traces, each with the answer
and the handle after it.  Every fact about a handle is read off these relations; the operations
themselves are opened only here.
-/

namespace DaemonKeeper.ManagedProcess

variable {p p' : ManagedProcess} {trace : List Exchange}

/-! ## Queries -/

/-- A status query on the held child, with its trace, its answer and the handle after it. -/
inductive Asked (p : ManagedProcess) : List Exchange → Bool → ManagedProcess → Prop where
  /-- Nothing is held and nothing is asked. -/
  | idle : p.child = none → Asked p [] false p
  /-- The child is known to have ended, and is let go. -/
  | ended {pid : Nat} : p.child = some pid →
    Asked p [⟨.status pid, .exited⟩] false { p with child := none }
  /-- The child is alive, or the query failed; it is kept. -/
  | kept {pid : Nat} {reply : ChildStatus} : p.child = some pid → reply ≠ .exited →
    Asked p [⟨.status pid, reply⟩] true p

/-- Asking whether a child is running is one query. -/
theorem asked_of_runs_isRunning {running : Bool}
    (h : Action.Runs p.isRunning trace (running, p')) : Asked p trace running p' := by
  unfold isRunning at h
  split at h
  · rename_i hchild
    obtain ⟨rfl, rfl, rfl⟩ := Action.runs_pure_pair_iff.mp h
    exact .idle hchild
  · rename_i pid hchild
    obtain ⟨reply, rest, rfl, hrest⟩ := Action.runs_request_bind_iff.mp h
    cases reply with
    | alive =>
      obtain ⟨rfl, rfl, rfl⟩ := Action.runs_pure_pair_iff.mp hrest
      exact .kept hchild (by decide)
    | exited =>
      obtain ⟨rfl, rfl, rfl⟩ := Action.runs_pure_pair_iff.mp hrest
      exact .ended hchild
    | unknown =>
      obtain ⟨rfl, rfl, rfl⟩ := Action.runs_pure_pair_iff.mp hrest
      exact .kept hchild (by decide)

/-- After a query the handle holds a child if and only if the query said that it runs. -/
theorem Asked.isSome_child {running : Bool} (h : Asked p trace running p') :
    p'.child.isSome = running := by
  cases h with
  | idle hchild => rw [hchild]; rfl
  | ended _ => rfl
  | kept hchild _ => rw [hchild]; rfl

/-- A query that says that nothing runs leaves nothing held. -/
theorem Asked.child_eq_none (h : Asked p trace false p') : p'.child = none :=
  Option.isSome_eq_false_iff.mp h.isSome_child |> Option.isNone_iff_eq_none.mp

/-- A query that says that a child runs changes nothing. -/
theorem Asked.eq_of_running (h : Asked p trace true p') : p' = p := by
  cases h
  rfl

/-- The process id that a handle tells when it has just been asked. -/
def toldPid (p : ManagedProcess) : Int :=
  match p.child with
  | some pid => pid
  | none => notRunningPid

/-- Asking for the process id is one query, and what is told is read off the handle after it. -/
theorem asked_of_runs_pid {pid : Int} (h : Action.Runs p.pid trace (pid, p')) :
    (∃ running, Asked p trace running p') ∧ pid = p'.toldPid := by
  unfold ManagedProcess.pid at h
  obtain ⟨first, second, ⟨running, q⟩, rfl, hquery, htell⟩ := Action.runs_bind_iff.mp h
  have hasked : Asked p first running q := asked_of_runs_isRunning hquery
  have hsome := hasked.isSome_child
  cases hchild : q.child with
  | none =>
    rw [hchild] at hsome
    cases hsome
    simp only [hchild] at htell
    obtain ⟨rfl, rfl, rfl⟩ := Action.runs_pure_pair_iff.mp htell
    exact ⟨⟨false, by simpa using hasked⟩, by rw [toldPid, hchild]⟩
  | some held =>
    rw [hchild] at hsome
    cases hsome
    simp only [hchild] at htell
    obtain ⟨rfl, rfl, rfl⟩ := Action.runs_pure_pair_iff.mp htell
    exact ⟨⟨true, by simpa using hasked⟩, by rw [toldPid, hchild]⟩

/-- A query on a held child that says that it runs was answered otherwise than by its end, and it
tells the child; one that says that it does not tells nothing. -/
theorem Asked.of_child {pid : Nat} {running : Bool} (hchild : p.child = some pid)
    (h : Asked p trace running p') :
    ∃ reply, trace = [⟨.status pid, reply⟩] ∧ (running = true ↔ reply ≠ .exited) ∧
      p'.toldPid = if reply = .exited then notRunningPid else pid := by
  cases h with
  | idle hnone =>
    rw [hchild] at hnone
    cases hnone
  | @ended held hheld =>
    obtain rfl : pid = held := Option.some.inj (hchild.symm.trans hheld)
    exact ⟨.exited, rfl, by simp, rfl⟩
  | @kept held reply hheld hreply =>
    obtain rfl : pid = held := Option.some.inj (hchild.symm.trans hheld)
    exact ⟨reply, rfl, by simp [hreply], by rw [if_neg hreply, toldPid, hchild]⟩

/-! ## Starting -/

/-- The fault of a start that the machine refuses. -/
def spawnFault (executable : Path) (cause : IoFault) : Fault :=
  if cause.isDenial then .notExecutable executable else .io cause

/-- A start, with its trace, its outcome and the handle after it. -/
inductive Started (p : ManagedProcess) (executable : Path) (arguments : List String) :
    List Exchange → Except Fault Unit → ManagedProcess → Prop where
  /-- There is no executable file; the child is not even asked for. -/
  | notExecutable : Started p executable arguments [⟨.isExecutable executable, false⟩]
    (.error (.notExecutable executable)) p
  /-- A child is running; it is asked for once more, to tell its process id. -/
  | alreadyRunning {first second : List Exchange} {running : Bool} {q r : ManagedProcess} :
    Asked p first true q → Asked q second running r →
    Started p executable arguments (⟨.isExecutable executable, true⟩ :: (first ++ second))
      (.error (.alreadyRunning r.label r.toldPid)) r
  /-- The machine refuses to start the child. -/
  | refused {first : List Exchange} {q : ManagedProcess} {cause : IoFault} :
    Asked p first false q →
    Started p executable arguments
      (⟨.isExecutable executable, true⟩ ::
        (first ++ [⟨.spawn executable arguments, .error cause⟩]))
      (.error (spawnFault executable cause)) q
  /-- The child is started and held. -/
  | spawned {first : List Exchange} {q : ManagedProcess} {pid : Nat} :
    Asked p first false q →
    Started p executable arguments
      (⟨.isExecutable executable, true⟩ :: (first ++ [⟨.spawn executable arguments, .ok pid⟩]))
      (.ok ()) { q with child := some pid }

/-- Starting has no other runs. -/
theorem started_of_runs_start {executable : Path} {arguments : List String}
    {outcome : Except Fault Unit}
    (h : Action.Runs (p.start executable arguments) trace (outcome, p')) :
    Started p executable arguments trace outcome p' := by
  unfold start at h
  obtain ⟨found, rest, rfl, hfound⟩ := Action.runs_request_bind_iff.mp h
  cases found with
  | false =>
    obtain ⟨rfl, rfl, rfl⟩ := Action.runs_pure_pair_iff.mp hfound
    exact .notExecutable
  | true =>
    obtain ⟨first, second, ⟨running, q⟩, rfl, hquery, hnext⟩ := Action.runs_bind_iff.mp hfound
    have hasked : Asked p first running q := asked_of_runs_isRunning hquery
    cases running with
    | true =>
      obtain ⟨third, last, ⟨pid, r⟩, rfl, hpid, hend⟩ := Action.runs_bind_iff.mp hnext
      obtain ⟨⟨again, hagain⟩, rfl⟩ := asked_of_runs_pid hpid
      obtain ⟨rfl, rfl, rfl⟩ := Action.runs_pure_pair_iff.mp hend
      rw [List.append_nil]
      exact .alreadyRunning hasked hagain
    | false =>
      obtain ⟨reply, last, rfl, hspawn⟩ := Action.runs_request_bind_iff.mp hnext
      cases reply with
      | ok pid =>
        obtain ⟨rfl, rfl, rfl⟩ := Action.runs_pure_pair_iff.mp hspawn
        exact .spawned hasked
      | error cause =>
        obtain ⟨rfl, rfl, rfl⟩ := Action.runs_pure_pair_iff.mp hspawn
        exact .refused hasked

/-! ## Stopping -/

/-- Waiting for the child to end with `remaining` sleeps left and `checks` behind, with the trace,
the number of sleeps in all and the handle after it. -/
inductive Awaited : Nat → Nat → ManagedProcess → List Exchange → Nat → ManagedProcess → Prop where
  /-- The sleeps are used up. -/
  | exhausted {checks : Nat} {p : ManagedProcess} : Awaited 0 checks p [] checks p
  /-- The child has ended. -/
  | ended {remaining checks : Nat} {p q : ManagedProcess} {first : List Exchange} :
    Asked p first false q → Awaited (remaining + 1) checks p first checks q
  /-- The child runs, and is waited for. -/
  | slept {remaining checks total : Nat} {p q r : ManagedProcess} {first rest : List Exchange} :
    Asked p first true q → Awaited remaining (checks + 1) q rest total r →
    Awaited (remaining + 1) checks p
      (first ++ ⟨.sleep q.stopPolicy.pollInterval, ()⟩ :: rest) total r

/-- Waiting has no other runs. -/
theorem awaited_of_runs_awaitExit {remaining checks total : Nat}
    (h : Action.Runs (awaitExit remaining checks p) trace (total, p')) :
    Awaited remaining checks p trace total p' := by
  induction remaining generalizing checks p trace with
  | zero =>
    obtain ⟨rfl, rfl, rfl⟩ := Action.runs_pure_pair_iff.mp h
    exact .exhausted
  | succ remaining ih =>
    unfold awaitExit at h
    obtain ⟨first, second, ⟨running, q⟩, rfl, hquery, hnext⟩ := Action.runs_bind_iff.mp h
    have hasked : Asked p first running q := asked_of_runs_isRunning hquery
    cases running with
    | false =>
      obtain ⟨rfl, rfl, rfl⟩ := Action.runs_pure_pair_iff.mp hnext
      rw [List.append_nil]
      exact .ended hasked
    | true =>
      obtain ⟨⟨⟩, rest, rfl, hrest⟩ := Action.runs_request_bind_iff.mp hnext
      exact .slept hasked (ih hrest)

/-- A stop, with its trace, its outcome and the handle after it. -/
inductive Stopped (p : ManagedProcess) :
    List Exchange → Except Fault Unit → ManagedProcess → Prop where
  /-- Nothing runs, and nothing is signalled. -/
  | idle {first : List Exchange} {q : ManagedProcess} :
    Asked p first false q → Stopped p first (.ok ()) q
  /-- The machine refuses to signal the process id that the second query tells. -/
  | refused {first second : List Exchange} {running : Bool} {q r : ManagedProcess}
    {cause : IoFault} :
    Asked p first true q → Asked q second running r →
    Stopped p (first ++ (second ++ [⟨.signal r.toldPid .terminate, .error cause⟩]))
      (.error (.io cause)) r
  /-- The child was signalled, and is known to have ended. -/
  | ended {first second third last : List Exchange} {running : Bool} {checks : Nat}
    {q r s t : ManagedProcess} :
    Asked p first true q → Asked q second running r →
    Awaited r.stopPolicy.maxChecks 0 r third checks s → Asked s last false t →
    Stopped p
      (first ++ (second ++ ⟨.signal r.toldPid .terminate, .ok ()⟩ :: (third ++ last))) (.ok ()) t
  /-- The child was signalled, and is not known to have ended when the time is over. -/
  | timedOut {first second third last : List Exchange} {running : Bool} {checks : Nat}
    {q r s t : ManagedProcess} :
    Asked p first true q → Asked q second running r →
    Awaited r.stopPolicy.maxChecks 0 r third checks s → Asked s last true t →
    Stopped p (first ++ (second ++ ⟨.signal r.toldPid .terminate, .ok ()⟩ :: (third ++ last)))
      (.error (.stopTimeout t.label r.toldPid checks)) t

/-- Stopping has no other runs. -/
theorem stopped_of_runs_stop {outcome : Except Fault Unit}
    (h : Action.Runs p.stop trace (outcome, p')) : Stopped p trace outcome p' := by
  unfold stop at h
  obtain ⟨first, rest, ⟨running, q⟩, rfl, hquery, hnext⟩ := Action.runs_bind_iff.mp h
  have hasked : Asked p first running q := asked_of_runs_isRunning hquery
  cases running with
  | false =>
    obtain ⟨rfl, rfl, rfl⟩ := Action.runs_pure_pair_iff.mp hnext
    rw [List.append_nil]
    exact .idle hasked
  | true =>
    obtain ⟨second, rest, ⟨pid, r⟩, rfl, hpid, hsignal⟩ := Action.runs_bind_iff.mp hnext
    obtain ⟨⟨again, hagain⟩, rfl⟩ := asked_of_runs_pid hpid
    obtain ⟨reply, rest, rfl, hsent⟩ := Action.runs_request_bind_iff.mp hsignal
    cases reply with
    | error cause =>
      obtain ⟨rfl, rfl, rfl⟩ := Action.runs_pure_pair_iff.mp hsent
      exact .refused hasked hagain
    | ok =>
      obtain ⟨third, rest, ⟨checks, s⟩, rfl, hwait, hlast⟩ := Action.runs_bind_iff.mp hsent
      have hawaited := awaited_of_runs_awaitExit hwait
      obtain ⟨last, rest, ⟨still, t⟩, rfl, hstill, hend⟩ := Action.runs_bind_iff.mp hlast
      have hlastAsked : Asked s last still t := asked_of_runs_isRunning hstill
      cases still with
      | true =>
        obtain ⟨rfl, rfl, rfl⟩ := Action.runs_pure_pair_iff.mp hend
        rw [List.append_nil]
        exact .timedOut hasked hagain hawaited hlastAsked
      | false =>
        obtain ⟨rfl, rfl, rfl⟩ := Action.runs_pure_pair_iff.mp hend
        rw [List.append_nil]
        exact .ended hasked hagain hawaited hlastAsked

/-- A stop that succeeds leaves nothing held. -/
theorem Stopped.child_eq_none (h : Stopped p trace (.ok ()) p') : p'.child = none := by
  cases h with
  | idle hasked => exact hasked.child_eq_none
  | ended _ _ _ hlast => exact hlast.child_eq_none

/-! ## Killing -/

/-- A kill, with its trace, its outcome and the handle after it. -/
inductive Killed (p : ManagedProcess) :
    List Exchange → Except Fault Unit → ManagedProcess → Prop where
  | idle : p.child = none → Killed p [] (.ok ()) p
  /-- The machine could not kill the child or not wait for it; it is kept. -/
  | refused {pid : Nat} {cause : IoFault} : p.child = some pid →
    Killed p [⟨.kill pid, .error cause⟩] (.error (.io cause)) p
  | ended {pid : Nat} : p.child = some pid →
    Killed p [⟨.kill pid, .ok ()⟩] (.ok ()) { p with child := none }

/-- Killing has no other runs. -/
theorem killed_of_runs_kill {outcome : Except Fault Unit}
    (h : Action.Runs p.kill trace (outcome, p')) : Killed p trace outcome p' := by
  unfold kill at h
  split at h
  · rename_i hchild
    obtain ⟨rfl, rfl, rfl⟩ := Action.runs_pure_pair_iff.mp h
    exact .idle hchild
  · rename_i pid hchild
    obtain ⟨reply, rest, rfl, hrest⟩ := Action.runs_request_bind_iff.mp h
    cases reply with
    | error cause =>
      obtain ⟨rfl, rfl, rfl⟩ := Action.runs_pure_pair_iff.mp hrest
      exact .refused hchild
    | ok =>
      obtain ⟨rfl, rfl, rfl⟩ := Action.runs_pure_pair_iff.mp hrest
      exact .ended hchild

end DaemonKeeper.ManagedProcess
