import DaemonKeeper.Proofs.CurrentBinary
import DaemonKeeper.Proofs.FaultlessRuns
import DaemonKeeper.Proofs.RunStages
set_option autoImplicit false

/-!
# Runs with a limit (SPEC §3.5, §5)

A run with a limit on the number of cycles, in which nothing goes wrong that is not up to the
supervisor, does exactly what its limit says.  No pass of it fails, so it goes on to its last cycle.
The daemons go through the cycles in step; the loop pauses once in each of them; and the ledger of
every daemon is closed by the shutdown.
-/

namespace DaemonKeeper.Supervisor

open Log ManagedProcess

variable {s₀ s₁ s s' : Supervisor} {maxChecks polls : Nat} {out : List Nat}
variable {whole loop pass later : List Exchange} {log : Log} {outcome : Except Fault Unit}
variable {buildName : String}

/-! ## Turns that cannot fail -/

section Turns

variable {d₀ d : Daemon} {phase : Phase} {answers : List (List Exchange × Bool)}
variable {builds : List (List Exchange)} {own stop : List Exchange} {p : ManagedProcess}

/-- A daemon fails to update, poll or build as it did at first. -/
theorem Served.endsInFailure {turn : List Exchange} (h : Served d₀ phase answers builds own d)
    (hfailure : EndsInFailure d turn) : EndsInFailure d₀ turn := by
  rw [h.same.1] at hfailure
  exact hfailure

/-- A smooth stop of a daemon that rests or has been polled succeeds. -/
theorem Served.eq_ok_of_stopped (hbegun : Begun s₁ maxChecks out) (hd₀ : d₀ ∈ s₁.daemons)
    (h : Served d₀ phase answers builds own d) (hstopped : Stopped d.process stop outcome p)
    (hled : LedBy maxChecks (own ++ stop)) (hsmooth : ∀ e ∈ stop, e.smooth = true) :
    outcome = .ok () := by
  have hledger := h.ledger (hbegun.idle d₀ hd₀) hled.left
  refine hstopped.eq_ok hledger.running_or_idle ?_ hsmooth
  rw [h.same.2.2, hbegun.patience d₀ hd₀]
  exact hled

/-- A smooth shutdown of a daemon is such a stop: there is nothing to kill. -/
theorem Served.stopped_of_shutDown (hbegun : Begun s₁ maxChecks out) (hd₀ : d₀ ∈ s₁.daemons)
    (h : Served d₀ phase answers builds own d) (hshut : ShutDown d stop outcome p)
    (hled : LedBy maxChecks (own ++ stop)) (hsmooth : ∀ e ∈ stop, e.smooth = true) :
    outcome = .ok () ∧ Stopped d.process stop (.ok ()) p := by
  cases hshut with
  | stopped hstopped =>
    obtain rfl := h.eq_ok_of_stopped hbegun hd₀ hstopped hled hsmooth
    exact ⟨rfl, hstopped⟩
  | @killed first kill _ _ _ _ _ _ hstopped _ =>
    rw [← List.append_assoc] at hled
    have hok := h.eq_ok_of_stopped hbegun hd₀ hstopped hled.left
      fun e he => hsmooth e (List.mem_append_left kill he)
    cases hok

end Turns

namespace SoFar

/-! ## Passes that cannot fail -/

section Passes

variable (hbegun : Begun s₁ maxChecks out) (hfree : FaultFree s₁ maxChecks out whole)
variable (hwhole : whole = Log.trace log ++ (pass ++ later))
include hbegun hfree hwhole

/-- The first builds succeed. -/
theorem eq_ok_of_buildAll (h : SoFar Untouched s₁ log loop s)
    (hruns : Action.Runs (s.buildAll buildName) pass (outcome, s'))
    (hend : ∀ fault, outcome = .error fault → later = []) : outcome = .ok () := by
  refine h.eq_ok_of_eachDaemonEffect hbegun hfree hwhole hend hruns
    (fun _ _ _ _ hturn => (Turn.refreshed hturn).attended.keepsToChild) ?_
  rintro i d₀ _ d turn fault d' - ⟨rfl, rfl⟩ - - hturn
  exact endsInFailure_of_runs_refresh hturn

/-- Every daemon that does not run can be started, because it was built. -/
theorem eq_ok_of_ensureRunning (h : SoFar (At polls .resting) s₁ log loop s)
    (hruns : Action.Runs s.ensureRunning pass (outcome, s'))
    (hend : ∀ fault, outcome = .error fault → later = []) : outcome = .ok () := by
  refine h.eq_ok_of_eachDaemonEffect hbegun hfree hwhole hend hruns
    (fun _ _ _ _ hturn => (Turn.started hturn).attended.keepsToChild) ?_
  rintro i d₀ own d turn fault d' - ⟨answers, builds, hserved, -⟩ - hsmooth hturn
  cases eq_ok_of_runs_startDaemon hturn hserved.same.2.1 hsmooth

/-- A poll, and the rebuild that may follow it, succeeds. -/
theorem eq_ok_of_rebuildChanged {flags : Except Fault (List Bool)}
    (h : SoFar (At polls .reported) s₁ log loop s)
    (hruns : Action.Runs (s.rebuildChanged buildName) pass (flags, s'))
    (hend : ∀ fault, flags = .error fault → later = []) : ∃ changed, flags = .ok changed := by
  refine h.eq_ok_of_eachDaemon hbegun hfree hwhole hend hruns
    (fun _ _ _ _ hturn => (Turn.rebuilt hturn).attended.keepsToChild) ?_
  rintro i d₀ own d turn fault d' - ⟨answers, builds, hserved, -⟩ - - hturn
  exact hserved.endsInFailure (endsInFailure_of_runs_rebuildDaemon hturn)

/-- The daemons that the policies select can be stopped, because their children are obedient. -/
theorem eq_ok_of_applyRestartPolicy {flags : List Bool}
    (h : SoFar (fun i d₀ own d => ∃ flag, flags[i]? = some flag ∧
      At polls (.polled flag) i d₀ own d) s₁ log loop s)
    (hruns : Action.Runs (s.applyRestartPolicy flags) pass (outcome, s'))
    (hend : ∀ fault, outcome = .error fault → later = []) : outcome = .ok () := by
  obtain ⟨piece, answers, ds', rfl, htour, rfl, rfl⟩ := tour_of_runs_applyRestartPolicy hruns
  have hok : ∃ as, answers = .ok as := by
    refine h.eq_ok_of_tour hbegun hfree (by simpa using hwhole)
      (by rintro fault rfl; exact hend fault rfl) htour
      (fun _ _ _ _ _ hturn => (turn_of_runs_stopStep hturn).attended.keepsToChild) ?_
    rintro i d₀ own d turn fault d' hd₀ ⟨flag, -, answers, builds, hserved, -⟩ hled hsmooth hturn
    unfold stopStep at hturn
    split at hturn
    · obtain ⟨p, hstopped, rfl⟩ := Daemon.stopped_of_runs_stop hturn
      cases hserved.eq_ok_of_stopped hbegun hd₀ hstopped hled hsmooth
    · obtain ⟨-, hfault, -⟩ := Action.runs_pure_pair_iff.mp hturn
      cases hfault
  obtain ⟨as, rfl⟩ := hok
  rfl

/-- So can all of them. -/
theorem eq_ok_of_shutdown (h : SoFar (At polls .resting) s₁ log loop s)
    (hruns : Action.Runs s.shutdown pass (outcome, s'))
    (hend : ∀ fault, outcome = .error fault → later = []) : outcome = .ok () := by
  refine h.eq_ok_of_eachDaemonEffect hbegun hfree hwhole hend hruns
    (fun d turn answer d' hturn => ?_) ?_
  · obtain ⟨p, hshut, rfl⟩ := shutDown_of_runs_shutdown hturn
    exact hshut.keepsToChild
  · rintro i d₀ own d turn fault d' hd₀ ⟨answers, builds, hserved, -⟩ hled hsmooth hturn
    obtain ⟨p, hshut, rfl⟩ := shutDown_of_runs_shutdown hturn
    cases (hserved.stopped_of_shutDown hbegun hd₀ hshut hled hsmooth).1

/-- A renewal succeeds. -/
theorem eq_ok_of_renew (h : SoFar (At polls .reported) s₁ log loop s)
    (hruns : Action.Runs s.renew pass (outcome, s'))
    (hend : ∀ fault, outcome = .error fault → later = []) : outcome = .ok () := by
  obtain ⟨named, rest, buildName, rfl, hname, hrest⟩ := Action.runs_bind_iff.mp hruns
  obtain ⟨now, rfl, rfl⟩ := clock_of_runs_currentBuildName hname
  have hnamed := h.wait (e := ⟨.clock, now⟩) rfl
  rcases runs_andThen hrest with ⟨fault, hfailed, rfl⟩ |
    ⟨rebuild, restart, flags, s₂, rfl, hrebuild, hrestart⟩
  · obtain ⟨flags, hflags⟩ := hnamed.eq_ok_of_rebuildChanged hbegun hfree
      (by simpa using hwhole) hfailed fun _ _ => hend fault rfl
    cases hflags
  · obtain ⟨piece, rfl, hrebuilt⟩ := hnamed.rebuilt hrebuild
    exact hrebuilt.eq_ok_of_applyRestartPolicy hbegun hfree (by simpa using hwhole) hrestart hend

/-- After a cycle the run goes on. -/
theorem underWay_of_cycle {progress : Progress} (h : SoFar (At polls .resting) s₁ log loop s)
    (hruns : Action.Runs s.cycle pass (progress, s'))
    (hend : ∀ outcome, progress = .ended outcome → later = []) : progress = .underWay := by
  obtain ⟨call, rest, ⟨called, s₂⟩, rfl, hcall, hrest⟩ := Action.runs_bind_iff.mp hruns
  have hok : called = .ok () := by
    have hparts : whole = Log.trace log ++ (call ++ (rest ++ later)) := by simpa using hwhole
    refine h.eq_ok_of_ensureRunning hbegun hfree hparts hcall ?_
    rintro fault rfl
    obtain ⟨rfl, rfl, -⟩ := Action.runs_pure_pair_iff.mp hrest
    rw [hend _ rfl, List.nil_append]
  subst hok
  obtain ⟨piece, rfl, hcalled⟩ := h.called hcall
  obtain ⟨report, rest, s₃, rfl, hreport, hpause⟩ := Action.runs_bind_iff.mp hrest
  obtain ⟨told, rfl, hreported⟩ := hcalled.reported hreport
  obtain ⟨wake, rest, rfl, hwake⟩ := Action.runs_request_bind_iff.mp hpause
  have hsmooth := hfree.smooth ⟨.pause s₃.pollInterval, wake⟩ (by simp [hwhole])
  cases wake with
  | interrupted => cases hsmooth
  | elapsed =>
    have hpaused := hreported.wait (e := ⟨.pause s₃.pollInterval, .elapsed⟩) rfl
    obtain ⟨renewal, last, ⟨renewed, s₄⟩, rfl, hrenew, hlast⟩ := Action.runs_bind_iff.mp hwake
    obtain ⟨rfl, rfl, rfl⟩ := Action.runs_pure_pair_iff.mp hlast
    have hok : renewed = .ok () := by
      refine hpaused.eq_ok_of_renew hbegun hfree (by simpa using hwhole) hrenew ?_
      rintro fault rfl
      exact hend _ rfl
    rw [hok]
    rfl

end Passes

end SoFar

/-! ## Cycles -/

/-- The daemon has been polled so many times, and was then shut down. -/
def Shut (polls : Nat) (_ : Nat) (d₀ : Daemon) (own : List Exchange) (_ : Daemon) : Prop :=
  ∃ answers builds served closing d p, Served d₀ .resting answers builds served d ∧
    own = served ++ closing ∧ ShutDown d closing (.ok ()) p ∧ answers.length = polls

namespace SoFar

/-- Every daemon is shut down in the end. -/
theorem shut (h : SoFar (At polls .resting) s₁ log loop s)
    (hruns : Action.Runs s.shutdown pass (.ok (), s')) :
    ∃ piece, Log.trace piece = pass ∧ SoFar (Shut polls) s₁ (log ++ piece) loop s' := by
  refine h.eachDaemonEffect hruns (fun d turn answer d' hturn => ?_) ?_
  · obtain ⟨p, hshut, rfl⟩ := shutDown_of_runs_shutdown hturn
    exact hshut.keepsToChild
  · rintro i d₀ own d turn _ d' ⟨answers, builds, hserved, hpolls⟩ hturn
    obtain ⟨p, hshut, rfl⟩ := shutDown_of_runs_shutdown hturn
    exact ⟨answers, builds, own, turn, d, p, hserved, rfl, hshut, hpolls⟩

/-- A cycle is followed by what is to follow it. -/
theorem cycledThen {next : Supervisor → Action (Except Fault Unit × Supervisor)}
    (hbegun : Begun s₁ maxChecks out) (hfree : FaultFree s₁ maxChecks out whole)
    (hwhole : whole = Log.trace log ++ pass) (h : SoFar (At polls .resting) s₁ log loop s)
    (hruns : Action.Runs (cycleThen next s) pass (outcome, s')) :
    ∃ piece now s₂ rest, whole = Log.trace (log ++ piece) ++ rest ∧
      SoFar (At (polls + 1) .resting) s₁ (log ++ piece) (loop ++ round s₁.pollInterval now) s₂ ∧
      Action.Runs (next s₂) rest (outcome, s') := by
  rw [cycleThen_eq] at hruns
  obtain ⟨first, rest, ⟨progress, s₂⟩, rfl, hcycle, hrest⟩ := Action.runs_bind_iff.mp hruns
  have hunderWay : progress = .underWay := by
    refine h.underWay_of_cycle hbegun hfree hwhole hcycle ?_
    rintro outcome rfl
    exact (Action.runs_pure_pair_iff.mp hrest).1
  subst hunderWay
  obtain ⟨piece, now, rfl, hcycled⟩ := h.cycled hcycle
  exact ⟨piece, now, s₂, rest, by rw [hwhole, trace_append, List.append_assoc], hcycled, hrest⟩

/-- Cycles go on to the last one, and then the daemons are shut down. -/
theorem cycles {remaining : Nat} (hbegun : Begun s₁ maxChecks out)
    (hfree : FaultFree s₁ maxChecks out whole) (hwhole : whole = Log.trace log ++ pass)
    (h : SoFar (At polls .resting) s₁ log loop s)
    (hruns : Action.Runs (cycles remaining s) pass (outcome, s')) :
    ∃ (log' : Log) (times : List Calendar.LocalTime), outcome = .ok () ∧ whole = Log.trace log' ∧
      times.length = remaining + 1 ∧ SoFar (Shut (polls + (remaining + 1))) s₁ log'
        (loop ++ times.flatMap (round s₁.pollInterval)) s' := by
  induction remaining generalizing polls loop log s pass with
  | zero =>
    rw [cycles_zero_eq] at hruns
    obtain ⟨piece, now, s₂, rest, hwhole₂, hsoFar, hend⟩ :=
      h.cycledThen hbegun hfree hwhole hruns
    have hparts : whole = Log.trace (log ++ piece) ++ (rest ++ []) := by
      rw [List.append_nil, hwhole₂]
    obtain rfl := hsoFar.eq_ok_of_shutdown hbegun hfree hparts hend fun _ _ => rfl
    obtain ⟨last, rfl, hshut⟩ := hsoFar.shut hend
    exact ⟨log ++ piece ++ last, [now], rfl, by rw [hwhole₂, trace_append _ last], rfl,
      by simpa using hshut⟩
  | succ remaining ih =>
    rw [cycles_succ_eq] at hruns
    obtain ⟨piece, now, s₂, rest, hwhole₂, hsoFar, hnext⟩ :=
      h.cycledThen hbegun hfree hwhole hruns
    obtain ⟨log', times, rfl, hwhole₃, hlength, hshut⟩ := ih hwhole₂ hsoFar hnext
    refine ⟨log', now :: times, rfl, hwhole₃, congrArg Nat.succ hlength, ?_⟩
    have hcount : polls + 1 + (remaining + 1) = polls + (remaining + 1 + 1) := by omega
    rw [hcount, List.append_assoc] at hshut
    exact hshut

end SoFar

/-! ## The counter -/

/-- A counter that does not overflow counts on. -/
theorem toNat_counter_add_one {counter : UInt64} (h : counter.toNat + 1 < Word.bound64) :
    (counter + 1).toNat = counter.toNat + 1 := by
  rw [UInt64.toNat_add]
  exact Nat.mod_eq_of_lt h

/-- The cycles with their counter of 64 bits, which is compared with the limit at the end of each
cycle.  There is no outcome if the counter overflows. -/
def countedCycles (limit counter : UInt64) (s : Supervisor) :
    Action (Option (Except Fault Unit) × Supervisor) :=
  if counter.toNat + 1 < Word.bound64 then do
    let (progress, s) ← s.cycle
    match progress with
    | .ended outcome => return (some outcome, s)
    | .underWay =>
      if hmore : counter + 1 < limit then countedCycles limit (counter + 1) s
      else
        let (outcome, s) ← s.shutdown
        return (some outcome, s)
  else return (none, s)
termination_by limit.toNat - counter.toNat
decreasing_by
  rename_i _ hroom
  rw [UInt64.lt_iff_toNat_lt, toNat_counter_add_one hroom] at hmore
  rw [toNat_counter_add_one hroom]
  omega

/-- The counter does not overflow, and counts the cycles of the run. -/
theorem countedCycles_eq {limit counter : UInt64}
    (h : counter.toNat ≤ furtherCycles (some limit.toNat)) (s : Supervisor) :
    countedCycles limit counter s =
      (fun (outcome, s) => (some outcome, s)) <$>
        cycles (furtherCycles (some limit.toNat) - counter.toNat) s := by
  have hfurther : furtherCycles (some limit.toNat) = limit.toNat - 1 := rfl
  generalize hremaining : furtherCycles (some limit.toNat) - counter.toNat = remaining
  have hlimit : limit.toNat < Word.bound64 := limit.toNat_lt
  have hroom : counter.toNat + 1 < Word.bound64 := by
    have hbound : 1 < Word.bound64 := by decide
    omega
  have hnext := toNat_counter_add_one hroom
  induction remaining generalizing counter s with
  | zero =>
    have hlast : ¬ counter + 1 < limit := by
      rw [UInt64.lt_iff_toNat_lt, hnext]
      omega
    rw [countedCycles, if_pos hroom, cycles_zero_eq, cycleThen_eq, map_bind]
    refine congrArg (s.cycle >>= ·) (funext fun ⟨progress, s⟩ => ?_)
    cases progress with
    | ended outcome => rfl
    | underWay => exact (dif_neg hlast).trans (map_eq_pure_bind _ _).symm
  | succ remaining ih =>
    have hmore : counter + 1 < limit := by
      rw [UInt64.lt_iff_toNat_lt, hnext]
      omega
    rw [countedCycles, if_pos hroom, cycles_succ_eq, cycleThen_eq, map_bind]
    refine congrArg (s.cycle >>= ·) (funext fun ⟨progress, s⟩ => ?_)
    cases progress with
    | ended outcome => rfl
    | underWay =>
      have hroom' : (counter + 1).toNat + 1 < Word.bound64 := by
        rw [UInt64.lt_iff_toNat_lt] at hmore
        omega
      exact (dif_pos hmore).trans
        (ih (by omega) s (by omega) hroom' (toNat_counter_add_one hroom'))

/-! ## Accounts -/

/-- What was done to a daemon in a run of so many cycles: it was polled once in each, built at first
and after each poll that has found a change, and started at first and again after each cycle but the
last after which its policy had it stopped.  Every child was asked to end once, and nothing else was
done to processes. -/
structure Account (d₀ : Daemon) (count : Nat) (own : List Exchange)
    (answers : List (List Exchange × Bool)) (builds : List (List Exchange)) (pids : List Nat) :
    Prop where
  served : ∃ served closing d p, Served d₀ .resting answers builds served d ∧
    own = served ++ closing ∧ Stopped d.process closing (.ok ()) p
  polled : answers.length = count
  built : builds.length = 1 + (answers.map Prod.snd).count true
  started : pids.length = 1 + ((answers.map Prod.snd).take (count - 1)).countP d₀.restart.restarts
  everyCycle : d₀.restart = .everyCycle → pids.length = count
  deeds_eq : deeds own = pids.flatMap service

/-- The account of a daemon that was shut down is in order. -/
theorem account_of_shut {d₀ d : Daemon} {own : List Exchange} {i count : Nat}
    (hbegun : Begun s₁ maxChecks out) (hd₀ : d₀ ∈ s₁.daemons) (hcount : 0 < count)
    (h : Shut count i d₀ own d) (hled : LedBy maxChecks own)
    (hsmooth : ∀ e ∈ own, e.smooth = true) :
    ∃ answers builds pids, Account d₀ count own answers builds pids := by
  obtain ⟨answers, builds, served, closing, d₁, p, hserved, rfl, hshut, rfl⟩ := h
  obtain ⟨-, hstopped⟩ := hserved.stopped_of_shutDown hbegun hd₀ hshut hled
    fun e he => hsmooth e (List.mem_append_right served he)
  have hledger := hserved.ledger (hbegun.idle d₀ hd₀) hled.left
  have hne : answers.map Prod.snd ≠ [] := by
    rw [Ne, List.map_eq_nil_iff]
    rintro rfl
    cases hcount
  obtain ⟨pids, hlength, hdeeds⟩ := hledger.closed hne hstopped hled
  have hstarted : pids.length =
      1 + ((answers.map Prod.snd).take (answers.length - 1)).countP d₀.restart.restarts := by
    rw [hlength, List.dropLast_eq_take, List.length_map]
  refine ⟨answers, builds, pids, ⟨served, closing, d₁, p, hserved, rfl, hstopped⟩, rfl,
    hserved.length_builds, hstarted, fun hpolicy => ?_, hdeeds⟩
  have hall : ∀ changed ∈ (answers.map Prod.snd).take (answers.length - 1),
      d₀.restart.restarts changed = true := by
    intro changed _
    rw [hpolicy]
    rfl
  rw [hstarted, List.countP_eq_length.mpr hall, List.length_take, List.length_map]
  omega

/-! ## The main result -/

/-- When the coordinator of a supervisor that was just set up has been started, the daemons hold
nothing yet. -/
theorem begun_of_startCoordinator {cfg : Config} {cpus : Nat} {start : List Exchange}
    (hconfig : ofConfig cfg cpus = .ok s₀)
    (hstart : Action.Runs s₀.startCoordinator start (outcome, s₁)) (hfresh : FreshPids [] start) :
    Begun s₁ cfg.stopPolicy.maxChecks (outstanding [] start) := by
  have hrecorded := Recorded.of_startCoordinator hstart
  have hheldOnce : HeldOnce s₀.holdings [] := by
    rw [holdings_of_ofConfig hconfig]
    exact .nothing []
  have hlater := hheldOnce.after hrecorded.kept (by rwa [trace_entries])
  rw [← hrecorded.holds, trace_entries] at hlater
  have hdaemons := daemons_of_runs_startCoordinator hstart
  refine ⟨hlater, fun d hd => ?_, fun d hd => ?_⟩
  · rw [hdaemons] at hd
    exact (fresh_of_ofConfig hconfig d hd).2
  · rw [hdaemons] at hd
    rw [stopPolicy_of_ofConfig hconfig d hd]

/-- A run with a limit `n` of a supervisor that was just set up, from the coordinator's start on.
The machine may reply anything, provided that it is smooth, that it hands out fresh process ids,
that no update, poll or build fails, and that the children of the daemons end only after they were
asked to, and unseen by no more queries than the stop policy has checks.  With `N = max 1 n` the run
succeeds, the 64 bits of its counter suffice, and in the log of the run

* every party has dealt with its own child only, and nobody but the daemons has started or signalled
  anything;
* the loop has asked for the time, and then `N` times for a pause and the time; and
* the account of every daemon is that of a run of `N` cycles. -/
theorem run_accounts {cfg : Config} {cpus : Nat} (hconfig : ofConfig cfg cpus = .ok s₀) {n : UInt64}
    {start rest : List Exchange} (hstart : Action.Runs s₀.startCoordinator start (.ok (), s₁))
    (hruns : Action.Runs (s₀.run (some n.toNat)) (start ++ rest) (outcome, s'))
    (hsmooth : ∀ e ∈ rest, e.smooth = true)
    (hfaultless : ∀ d ∈ s₀.daemons, ¬ EndsInFailure d rest)
    (hfresh : FreshPids [] (start ++ rest)) (hobedient : Obedient cfg.stopPolicy.maxChecks rest) :
    outcome = .ok () ∧
    (∀ s, countedCycles n 0 s =
      (fun (outcome, s) => (some outcome, s)) <$> cycles (furtherCycles (some n.toNat)) s) ∧
    ∃ (log : Log) (first : Calendar.LocalTime) (times : List Calendar.LocalTime),
      Log.trace log = rest ∧ Kept s₁.holdings log ∧ AsksOnly log ∧
      times.length = max 1 n.toNat ∧
      log.own .loop = ⟨.clock, first⟩ :: times.flatMap (round cfg.pollInterval) ∧
      (∀ entry ∈ log, ∀ i, entry.1 = .daemon i → i < s₀.daemons.length) ∧
      ∀ (i : Nat) d₀, s₀.daemons[i]? = some d₀ → ∃ answers builds pids,
        Account d₀ (max 1 n.toNat) (log.own (.daemon i)) answers builds pids := by
  have hdaemons : s₁.daemons = s₀.daemons := daemons_of_runs_startCoordinator hstart
  have hinterval : s₁.pollInterval = cfg.pollInterval :=
    pollInterval_of_startCoordinator hconfig hstart
  have hbegun : Begun s₁ cfg.stopPolicy.maxChecks (outstanding [] start) :=
    begun_of_startCoordinator hconfig hstart (freshPids_append.mp hfresh).1
  have hfree : FaultFree s₁ cfg.stopPolicy.maxChecks (outstanding [] start) rest :=
    ⟨hsmooth, hdaemons ▸ hfaultless, (freshPids_append.mp hfresh).2, hobedient⟩
  have hbegin : SoFar Untouched s₁ [] [] s₁ :=
    ⟨.refl s₁, .nil, rfl, rfl, nofun, rfl, fun i d₀ hd₀ => ⟨d₀, hd₀, rfl, rfl⟩⟩
  obtain ⟨named, building, buildName, rfl, hname, hbuilding⟩ :=
    Action.runs_bind_iff.mp (runs_of_runs_andThen hstart hruns)
  obtain ⟨first, rfl, rfl⟩ := clock_of_runs_currentBuildName hname
  have hnamed := hbegin.wait (e := ⟨.clock, first⟩) rfl
  obtain ⟨build, cycling, built, s₂, rfl, hbuild, hcycles⟩ :
      ∃ build cycling built s₂, building = build ++ cycling ∧
        Action.Runs (s₁.buildAll (Calendar.LocalTime.buildName first)) build (.ok built, s₂) ∧
        Action.Runs (cycles (furtherCycles (some n.toNat)) s₂) cycling (outcome, s') := by
    rcases runs_andThen hbuilding with ⟨fault, hfailed, rfl⟩ | hparts
    · have hparts : [⟨.clock, first⟩] ++ building =
          Log.trace ([] ++ entries .loop [⟨.clock, first⟩]) ++ (building ++ []) := by simp
      cases hnamed.eq_ok_of_buildAll hbegun hfree hparts hfailed fun _ _ => rfl
    · exact hparts
  obtain ⟨piece, rfl, hbuilt⟩ := hnamed.built hbuild
  obtain ⟨log, times, rfl, hlog, hlength, hshut⟩ :=
    hbuilt.cycles hbegun hfree (by simp) hcycles
  have hcount : 0 + (furtherCycles (some n.toNat) + 1) = max 1 n.toNat := by
    change 0 + (n.toNat - 1 + 1) = max 1 n.toNat
    omega
  rw [hcount] at hshut
  refine ⟨rfl, fun s => countedCycles_eq (Nat.zero_le _) s, log, first, times, hlog.symm,
    hshut.recorded.kept, hshut.asksOnly, by omega, ?_, ?_, fun i d₀ hd₀ => ?_⟩
  · rw [hshut.loop_eq, hinterval]
    rfl
  · rw [← hdaemons]
    exact hshut.parties
  · rw [← hdaemons] at hd₀
    obtain ⟨d, -, hplace⟩ := hshut.everyone.each i d₀ hd₀
    have hi : i < s₁.daemons.length := (List.getElem?_eq_some_iff.mp hd₀).1
    have hall : log.trace = log.trace ++ [] := (List.append_nil _).symm
    rw [hlog] at hfree
    have hled := hfree.ledBy hbegun hshut.recorded hall hi
    have hsmooth := hfree.smooth_own hall (.daemon i)
    exact account_of_shut hbegun (List.mem_of_getElem? hd₀) (by omega) hplace hled hsmooth

/-! ## A run that goes well -/

/-- A trace that ends with something about processes does not end in a failure. -/
theorem not_endsInFailure {d : Daemon} {before : List Exchange} {e : Exchange}
    (he : e.request.aboutProcess = true) (hbusy : ¬ Failing d []) :
    ¬ EndsInFailure d (before ++ [e]) := by
  rintro ⟨first, piece, htrace, hfailing⟩
  have hfree : ∀ e' ∈ piece, e'.request.aboutProcess = false := by
    obtain ⟨fault, hupdate | hpoll | ⟨buildName, hbuild⟩⟩ := hfailing
    · exact Action.Only.of_runs d.project.processFree_cloneSources hupdate
    · exact Action.Only.of_runs d.project.processFree_hasUpstreamChange hpoll
    · exact Action.Only.of_runs (d.processFree_buildBinary buildName) hbuild
  rcases List.eq_nil_or_concat piece with rfl | ⟨init, last, rfl⟩
  · exact hbusy hfailing
  · rw [List.concat_eq_append, ← List.append_assoc] at htrace
    obtain ⟨-, hlast⟩ := List.append_inj' htrace rfl
    obtain rfl := List.singleton_inj.mp hlast
    rw [hfree e (by simp)] at he
    cases he

/-- The solo daemon does nothing without asking the machine. -/
theorem not_failing_nil : ¬ Failing soloDaemon [] := by
  rintro ⟨fault, h | h | ⟨buildName, h⟩⟩
  · cases Action.runs_nil_iff.mp h
  · cases Action.runs_nil_iff.mp h
  · cases Action.runs_nil_iff.mp h

/-- The run of three cycles on a machine whose remote always has new commits. -/
def soloTrace : List Exchange := Action.traceWith soloMachine (solo.run (some 3)) (0, none)

/-- Nothing goes wrong in it, and the account of the daemon is that of three cycles. -/
theorem run_accounts_solo :
    ofConfig soloConfig 1 = .ok solo ∧ (∀ e ∈ soloTrace, e.smooth = true) ∧
    FreshPids [] soloTrace ∧ Obedient soloConfig.stopPolicy.maxChecks soloTrace ∧
    (∀ d ∈ solo.daemons, ¬ EndsInFailure d soloTrace) ∧
    ∃ s', Action.Runs (solo.run (some 3)) soloTrace (.ok (), s') ∧
      ∃ log answers builds pids, Log.trace log = soloTrace ∧
        Account soloDaemon 3 (Log.own (.daemon 0) log) answers builds pids := by
  have hconfig : ofConfig soloConfig 1 = .ok solo := rfl
  have hsmooth : ∀ e ∈ soloTrace, e.smooth = true := by decide +kernel
  have hfresh : FreshPids [] soloTrace := by decide +kernel
  have hobedient : Obedient soloConfig.stopPolicy.maxChecks soloTrace := by decide +kernel
  have hlast : soloTrace.getLast?.any fun e => e.request.aboutProcess = true := by decide +kernel
  have hfaultless : ∀ d ∈ solo.daemons, ¬ EndsInFailure d soloTrace := by
    obtain ⟨e, he, habout⟩ := (Option.any_eq_true _ _).mp hlast
    obtain ⟨before, hbefore⟩ := List.getLast?_eq_some_iff.mp he
    rw [hbefore]
    refine List.forall_mem_singleton.mpr (not_endsInFailure ?_ not_failing_nil)
    simpa using habout
  have hruns := Action.runs_traceWith soloMachine (solo.run (some 3)) (0, none)
  generalize (Action.runWith soloMachine (solo.run (some 3)) (0, none)).1 = result at hruns
  obtain ⟨outcome, s'⟩ := result
  have hstart : Action.Runs solo.startCoordinator [] (.ok (), solo) := .done _
  obtain ⟨rfl, -, log, -, -, htrace, -, -, -, -, -, haccounts⟩ :=
    run_accounts (n := 3) hconfig hstart hruns hsmooth hfaultless hfresh hobedient
  obtain ⟨answers, builds, pids, haccount⟩ := haccounts 0 soloDaemon rfl
  exact ⟨hconfig, hsmooth, hfresh, hobedient, hfaultless, s', hruns, log, answers, builds, pids,
    htrace, haccount⟩

end DaemonKeeper.Supervisor
