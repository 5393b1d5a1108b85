import DaemonKeeper.Proofs.BuildNames
import DaemonKeeper.Proofs.CurrentBinary
import DaemonKeeper.Proofs.FailedPasses
import DaemonKeeper.Proofs.RequestDirectories
set_option autoImplicit false

/-!
# Build directories of one run (SPEC §2, §3.5)

The clock is read once for the first builds and once in every cycle, and what is built until it is
read again goes into directories that are named after that reading.  So builds of one run keep apart
if the readings have different names.  Names tell seconds: readings that are a second or more apart
have different names, and nothing in the validation of a configuration asks for intervals that long.
-/

namespace DaemonKeeper

open Calendar

/-! ## Readings of the clock -/

/-- The time that the clock was seen to show. -/
def Exchange.reading? : Exchange → Option LocalTime
  | ⟨.clock, now⟩ => some now
  | _ => none

/-- The times that the clock has shown, in order. -/
def readings (trace : List Exchange) : List LocalTime := trace.filterMap Exchange.reading?

theorem readings_append (trace rest : List Exchange) :
    readings (trace ++ rest) = readings trace ++ readings rest :=
  List.filterMap_append

theorem Exchange.reading?_eq_none_of_ne {e : Exchange} (h : e.request ≠ .clock) :
    e.reading? = none := by
  obtain ⟨request, reply⟩ := e
  cases request with
  | clock => exact absurd rfl h
  | _ => rfl

theorem readings_eq_nil {trace : List Exchange} (h : ∀ e ∈ trace, e.request ≠ .clock) :
    readings trace = [] :=
  List.filterMap_eq_nil_iff.mpr fun e he => Exchange.reading?_eq_none_of_ne (h e he)

section

variable {P : List LocalTime → Exchange → Prop} {past : List LocalTime}
variable {first second trace : List Exchange}

/-- Every exchange has a property that may depend on the readings before it, some of which came
before the trace. -/
def Timed (P : List LocalTime → Exchange → Prop) (past : List LocalTime) (trace : List Exchange) :
    Prop :=
  ∀ before e after, trace = before ++ e :: after → P (past ++ readings before) e

theorem Timed.append (h : Timed P past first) (h' : Timed P (past ++ readings first) second) :
    Timed P past (first ++ second) := by
  intro before e after htrace
  rcases append_eq_append_cons_iff.mp htrace with ⟨middle, rfl, -⟩ | ⟨middle, rfl, rfl⟩
  · exact h before e middle rfl
  · rw [readings_append, ← List.append_assoc]
    exact h' middle e after rfl

/-- While the clock is not read, the readings stay the same. -/
theorem Timed.of_forall (huntimed : ∀ e ∈ trace, e.request ≠ .clock) (h : ∀ e ∈ trace, P past e) :
    Timed P past trace := by
  rintro before e after rfl
  rw [readings_eq_nil (List.forall_mem_append.mp huntimed).1, List.append_nil]
  exact h e (by simp)

end

/-! ## What a daemon knows in the course of a run -/

namespace Supervisor

/-- The directories that are there before anything is built. -/
def sourceDirectories (s : Supervisor) : List Path :=
  s.daemons.flatMap (·.project.sourceDirectories)

/-- A binary of one of the daemons, in a build that is named after one of some readings. -/
def BuiltBinary (s₀ : Supervisor) (past : List LocalTime) (path : Path) : Prop :=
  ∃ d ∈ s₀.daemons, ∃ now ∈ past,
    path = (d.project.outputDir now.buildName).join d.binary.text

/-- What a run may start: the coordinator, and what it has built. -/
def MayStart (s₀ : Supervisor) (past : List LocalTime) (path : Path) : Prop :=
  (∃ c, s₀.coordinator = some c ∧ path = c.spec.executable) ∨ s₀.BuiltBinary past path

/-- After some readings, something is done in the sources or in a directory that is named after the
last of them, and only what was built after one of them is started. -/
structure Dated (s₀ : Supervisor) (past : List LocalTime) (e : Exchange) : Prop where
  workplace : ∀ directory, e.request.workplace? = some directory →
    directory ∈ s₀.sourceDirectories ∨
      ∃ (parent : Path) (now : LocalTime), past.getLast? = some now ∧
        directory = parent.join now.buildName
  start : ∀ executable arguments, e.request = .spawn executable arguments →
    s₀.MayStart past executable

/-- The same between two readings. -/
def DatedWork (s₀ : Supervisor) (past : List LocalTime) (e : Exchange) : Prop :=
  e.request ≠ .clock ∧ s₀.Dated past e

/-- A daemon of a run is one of those at its beginning, and its binary, if any, was built after one
of the readings. -/
def Knows (s₀ : Supervisor) (past : List LocalTime) (d : Daemon) : Prop :=
  ∃ d₀ ∈ s₀.daemons, d.project = d₀.project ∧ d.binary = d₀.binary ∧
    ∀ path, d.executable = some path → ∃ now ∈ past,
      path = (d₀.project.outputDir now.buildName).join d₀.binary.text

variable {s₀ s s' : Supervisor} {past : List LocalTime} {now : LocalTime} {d d' : Daemon}
variable {trace turn : List Exchange}

theorem dated_of_ne {e : Exchange} (hplace : e.request.workplace? = none)
    (hstart : ∀ executable arguments, e.request ≠ .spawn executable arguments) :
    s₀.Dated past e where
  workplace directory h := by
    rw [hplace] at h
    cases h
  start executable arguments h := absurd h (hstart executable arguments)

theorem datedWork_of_staysIn (hnow : past.getLast? = some now) {e : Exchange}
    (h : e.request.StaysIn (Project.Workplace s₀.sourceDirectories now.buildName)) :
    s₀.DatedWork past e where
  left := h.untimed
  right :=
    { workplace := fun directory hplace =>
        (h.inside directory hplace).imp_right fun ⟨parent, hparent⟩ => ⟨parent, now, hnow, hparent⟩
      start := fun executable arguments hstart => absurd hstart (h.noStart executable arguments) }

theorem datedWork_of_processRequest {e : Exchange}
    (h : ProcessRequest (s₀.MayStart past) e.request) : s₀.DatedWork past e := by
  obtain ⟨request, reply⟩ := e
  cases h with
  | spawn arguments hstart =>
    refine ⟨nofun, nofun, fun executable arguments' hrequest => ?_⟩
    obtain ⟨rfl, -⟩ := Request.spawn.inj hrequest
    exact hstart
  | _ => exact ⟨nofun, dated_of_ne rfl nofun⟩

namespace Knows

theorem mono {more : List LocalTime} (h : s₀.Knows past d) : s₀.Knows (past ++ more) d := by
  obtain ⟨d₀, hd₀, hproject, hbinary, hbuilt⟩ := h
  refine ⟨d₀, hd₀, hproject, hbinary, fun path hpath => ?_⟩
  obtain ⟨now, hnow, hpath⟩ := hbuilt path hpath
  exact ⟨now, List.mem_append_left _ hnow, hpath⟩

/-- Nothing but the process is different. -/
theorem withProcess (h : s₀.Knows past d) (p : ManagedProcess) : s₀.Knows past (d.withProcess p) :=
  h

theorem mayStart (h : s₀.Knows past d) :
    ∀ path, d.executable = some path → s₀.MayStart past path := by
  intro path hpath
  obtain ⟨d₀, hd₀, -, -, hbuilt⟩ := h
  exact .inr ⟨d₀, hd₀, hbuilt path hpath⟩

theorem sourceDirectories_subset (h : s₀.Knows past d) :
    d.project.sourceDirectories ⊆ s₀.sourceDirectories := by
  obtain ⟨d₀, hd₀, hproject, -⟩ := h
  intro directory hdirectory
  rw [hproject] at hdirectory
  exact List.mem_flatMap.mpr ⟨d₀, hd₀, hdirectory⟩

/-- A completed build leaves a binary with the name of the last reading. -/
theorem completed (h : s₀.Knows past d) (hnow : past.getLast? = some now) {path : Path}
    (hbuild : d.Completed now.buildName turn path) : s₀.Knows past (d.withBinary path) := by
  obtain ⟨d₀, hd₀, hproject, hbinary, -⟩ := h
  obtain ⟨-, -, rfl⟩ := hbuild
  refine ⟨d₀, hd₀, hproject, hbinary, fun path hpath => ⟨now, List.mem_of_getLast? hnow, ?_⟩⟩
  rw [← Option.some.inj hpath, hproject, hbinary]

end Knows

/-! ## Turns -/

/-- Whatever a build of a daemon does is dated. -/
theorem datedWork_of_runs_buildBinary (hd : s₀.Knows past d) (hnow : past.getLast? = some now)
    {outcome : Except Fault Path}
    (h : Action.Runs (d.buildBinary now.buildName).attempt trace outcome) :
    ∀ e ∈ trace, s₀.DatedWork past e := by
  have hbuild : ∀ {recipe : List Exchange} {outcome : Except Fault Path},
      Action.Runs (d.project.build now.buildName).attempt recipe outcome →
      ∀ e ∈ recipe, s₀.DatedWork past e := fun hrecipe e he =>
    datedWork_of_staysIn hnow
      (Project.staysIn_of_runs_build hd.sourceDirectories_subset hrecipe e he)
  have hensure : ∀ path, Task.Only (ProcessRequest (s₀.MayStart past)) (do
      Daemon.ensureExecutable path
      return path) := fun path =>
    .bind (.bind (.request (.isExecutable path)) fun _ => .ite (.pure ()) (.fail _)) fun _ =>
      .pure path
  rcases Task.runs_bind h with ⟨fault, hrecipe, rfl⟩ | ⟨recipe, check, output, rfl, hrecipe, hcheck⟩
  · exact hbuild hrecipe
  · exact List.forall_mem_append.mpr ⟨hbuild hrecipe, fun e he =>
      datedWork_of_processRequest (Action.Only.of_runs (hensure _) hcheck e he)⟩

theorem datedWork_of_runs_cloneSources (hd : s₀.Knows past d) (hnow : past.getLast? = some now)
    {outcome : Except Fault Unit} (h : Action.Runs d.cloneSources.attempt trace outcome) :
    ∀ e ∈ trace, s₀.DatedWork past e := by
  intro e he
  have hstays := Project.staysIn_of_runs_cloneSources hd.sourceDirectories_subset h e he
  exact datedWork_of_staysIn hnow ⟨hstays.untimed, hstays.noStart, fun directory hplace =>
    .inl (hstays.inside directory hplace)⟩

theorem datedWork_of_runs_hasUpstreamChange (hd : s₀.Knows past d)
    (hnow : past.getLast? = some now) {outcome : Except Fault Bool}
    (h : Action.Runs d.hasUpstreamChange.attempt trace outcome) :
    ∀ e ∈ trace, s₀.DatedWork past e := by
  intro e he
  have hstays := Project.staysIn_of_runs_hasUpstreamChange hd.sourceDirectories_subset h e he
  exact datedWork_of_staysIn hnow ⟨hstays.untimed, hstays.noStart, fun directory hplace =>
    .inl (hstays.inside directory hplace)⟩

/-- A turn of a pass is dated if it is so at each of its steps, and the daemon stays known. -/
def DatedTurn (s₀ : Supervisor) (past : List LocalTime) {α : Type}
    (step : Nat → Daemon → Action (Except Fault α × Daemon)) : Prop :=
  ∀ i d turn answer d', s₀.Knows past d → Action.Runs (step i d) turn (answer, d') →
    s₀.Knows past d' ∧ ∀ e ∈ turn, s₀.DatedWork past e

theorem datedTurn_refresh (hnow : past.getLast? = some now) :
    s₀.DatedTurn past fun _ d => d.refresh now.buildName := by
  intro _ d turn outcome d' hd hturn
  refine ⟨?_, composes_refresh (.of_forall (s₀.DatedWork past))
    (fun _ _ => datedWork_of_runs_cloneSources hd hnow)
    (fun _ _ => datedWork_of_runs_buildBinary hd hnow) hturn⟩
  cases outcome with
  | error fault =>
    obtain rfl := Daemon.eq_of_runs_refresh_error hturn
    exact hd
  | ok =>
    obtain ⟨update, recipe, path, -, hrefreshed, rfl⟩ := Daemon.refreshed_of_runs_refresh hturn
    exact hd.completed hnow hrefreshed.completed

theorem datedTurn_rebuildDaemon (hnow : past.getLast? = some now) :
    s₀.DatedTurn past fun _ => rebuildDaemon now.buildName := by
  intro _ d turn outcome d' hd hturn
  refine ⟨?_, composes_rebuildDaemon (.of_forall (s₀.DatedWork past))
    (fun _ _ => datedWork_of_runs_hasUpstreamChange hd hnow)
    (fun _ _ => datedWork_of_runs_cloneSources hd hnow)
    (fun _ _ => datedWork_of_runs_buildBinary hd hnow) hturn⟩
  cases outcome with
  | error fault =>
    obtain rfl := BuildPass.eq_of_runs_rebuildDaemon_error hturn
    exact hd
  | ok flag =>
    cases renewed_of_runs_rebuildDaemon hturn with
    | unchanged _ => exact hd
    | rebuilt _ hrefreshed => exact hd.completed hnow hrefreshed.completed

/-- Starting a daemon changes nothing but its process, however it ends. -/
theorem exists_withProcess_of_runs_startDaemon {outcome : Except Fault Unit}
    (h : Action.Runs (startDaemon d) turn (outcome, d')) : ∃ p, d' = d.withProcess p := by
  obtain ⟨ensuring, telling, ⟨started, d₁⟩, -, hensure, htell⟩ := Action.runs_bind_iff.mp h
  obtain ⟨asking, starting, ⟨running, d₂⟩, -, hask, hstart⟩ := Action.runs_bind_iff.mp hensure
  obtain ⟨query, last, ⟨told, p⟩, -, -, hend⟩ := Action.runs_bind_iff.mp hask
  obtain ⟨-, -, rfl⟩ := Action.runs_pure_pair_iff.mp hend
  have hensured : ∃ q, d₁ = d.withProcess q := by
    cases running with
    | true =>
      obtain ⟨-, -, rfl⟩ := Action.runs_pure_pair_iff.mp hstart
      exact ⟨p, rfl⟩
    | false =>
      simp only [Bool.false_eq_true, if_false] at hstart
      split at hstart
      · obtain ⟨-, -, rfl⟩ := Action.runs_pure_pair_iff.mp hstart
        exact ⟨p, rfl⟩
      · obtain ⟨_, _, ⟨_, q⟩, -, -, hend⟩ := Action.runs_bind_iff.mp hstart
        obtain ⟨-, -, rfl⟩ := Action.runs_pure_pair_iff.mp hend
        exact ⟨q, rfl⟩
  obtain ⟨q, rfl⟩ := hensured
  rcases started with fault | started
  · obtain ⟨-, -, rfl⟩ := Action.runs_pure_pair_iff.mp htell
    exact ⟨q, rfl⟩
  cases started with
  | false =>
    obtain ⟨-, -, rfl⟩ := Action.runs_pure_pair_iff.mp htell
    exact ⟨q, rfl⟩
  | true =>
    obtain ⟨_, _, ⟨pid, d₂⟩, -, hpid, hend⟩ := Action.runs_bind_iff.mp htell
    obtain ⟨-, -, rfl⟩ := Action.runs_pure_pair_iff.mp hend
    obtain ⟨running, r, -, rfl⟩ := Daemon.asked_of_runs_pid hpid
    exact ⟨r, rfl⟩

theorem datedTurn_startDaemon : s₀.DatedTurn past fun _ => startDaemon := by
  intro _ d turn outcome d' hd hturn
  obtain ⟨p, rfl⟩ := exists_withProcess_of_runs_startDaemon hturn
  exact ⟨hd.withProcess p, fun e he => datedWork_of_processRequest
    (Action.Only.of_runs (only_startDaemon hd.mayStart) hturn e he)⟩

theorem datedTurn_reportDaemon : s₀.DatedTurn past fun _ => reportDaemon := by
  intro _ d turn outcome d' hd hturn
  obtain ⟨running, p, -, rfl⟩ := asked_of_runs_reportDaemon hturn
  exact ⟨hd.withProcess p, fun e he => datedWork_of_processRequest
    (Action.Only.of_runs (only_reportDaemon d) hturn e he)⟩

theorem datedTurn_stopStep (flags : List Bool) : s₀.DatedTurn past (stopStep flags) := by
  intro i d turn outcome d' hd hturn
  refine ⟨?_, fun e he => datedWork_of_processRequest
    (Action.Only.of_runs (only_stopStep flags i d) hturn e he)⟩
  unfold stopStep at hturn
  split at hturn
  · obtain ⟨p, -, rfl⟩ := Daemon.stopped_of_runs_stop hturn
    exact hd.withProcess p
  · obtain ⟨-, -, rfl⟩ := Action.runs_pure_pair_iff.mp hturn
    exact hd

/-- So does shutting it down. -/
theorem datedTurn_shutdown : s₀.DatedTurn past fun _ d => d.shutdown := by
  intro _ d turn outcome d' hd hturn
  refine ⟨?_, fun e he => datedWork_of_processRequest
    (Action.Only.of_runs d.only_shutdown hturn e he)⟩
  obtain ⟨stop, rest, ⟨answer, p⟩, -, -, hrest⟩ := Action.runs_bind_iff.mp hturn
  dsimp only at hrest
  split at hrest
  · obtain ⟨_, _, ⟨_, q⟩, -, -, hend⟩ := Action.runs_bind_iff.mp hrest
    obtain ⟨-, -, rfl⟩ := Action.runs_pure_pair_iff.mp hend
    exact hd.withProcess q
  · obtain ⟨-, -, rfl⟩ := Action.runs_pure_pair_iff.mp hrest
    exact hd.withProcess p

/-! ## Passes and cycles -/

/-- A tour of dated turns is dated, and the daemons stay known. -/
theorem DatedTurn.tour {α : Type} {step : Nat → Daemon → Action (Except Fault α × Daemon)}
    (hstep : s₀.DatedTurn past step) {i : Nat} {ds ds' : List Daemon} {log : Log}
    {answers : Except Fault (List α)} (h : Tour step i ds log answers ds')
    (hds : ∀ d ∈ ds, s₀.Knows past d) :
    (∀ e ∈ Log.trace log, s₀.DatedWork past e) ∧ ∀ d ∈ ds', s₀.Knows past d := by
  induction h with
  | nil => exact ⟨List.forall_mem_nil _, List.forall_mem_nil _⟩
  | failed hturn =>
    rw [List.forall_mem_cons] at hds
    obtain ⟨hknown, hdated⟩ := hstep _ _ _ _ _ hds.1 hturn
    rw [Log.trace_entries]
    exact ⟨hdated, List.forall_mem_cons.mpr ⟨hknown, hds.2⟩⟩
  | cons hturn _ ih =>
    rw [List.forall_mem_cons] at hds
    obtain ⟨hknown, hdated⟩ := hstep _ _ _ _ _ hds.1 hturn
    obtain ⟨hlater, hothers⟩ := ih hds.2
    rw [Log.trace_append, Log.trace_entries]
    exact ⟨List.forall_mem_append.mpr ⟨hdated, hlater⟩,
      List.forall_mem_cons.mpr ⟨hknown, hothers⟩⟩

/-- A stretch of a run after some readings: everything in it is dated, and at its end the daemons
are known. -/
structure Leg (s₀ : Supervisor) (past : List LocalTime) (trace : List Exchange)
    (s : Supervisor) : Prop where
  timed : Timed s₀.Dated past trace
  known : ∀ d ∈ s.daemons, s₀.Knows (past ++ readings trace) d

namespace Leg

variable {first second : List Exchange} {s₁ : Supervisor}

theorem append (h : s₀.Leg past first s₁)
    (h' : s₀.Leg (past ++ readings first) second s) : s₀.Leg past (first ++ second) s where
  timed := h.timed.append h'.timed
  known := by
    rw [readings_append, ← List.append_assoc]
    exact h'.known

/-- The clock is not read in the stretch. -/
theorem of_datedWork (hdated : ∀ e ∈ trace, s₀.DatedWork past e)
    (hknown : ∀ d ∈ s.daemons, s₀.Knows past d) : s₀.Leg past trace s where
  timed := .of_forall (fun e he => (hdated e he).1) fun e he => (hdated e he).2
  known := by
    rw [readings_eq_nil fun e he => (hdated e he).1, List.append_nil]
    exact hknown

/-- The clock is read. -/
theorem clock (now : LocalTime) (hknown : ∀ d ∈ s.daemons, s₀.Knows past d) :
    s₀.Leg past [⟨.clock, now⟩] s where
  timed := by
    intro before e after htrace
    rcases List.singleton_eq_append_iff.mp htrace with ⟨rfl, hlast⟩ | ⟨rfl, hnil⟩
    · obtain ⟨rfl, -⟩ := List.cons.inj hlast
      exact dated_of_ne rfl nofun
    · cases hnil
  known d hd := (hknown d hd).mono

end Leg

section

variable {outcome : Except Fault Unit} (hs : ∀ d ∈ s.daemons, s₀.Knows past d)
include hs

theorem leg_of_runs_eachDaemon {α : Type} {step : Daemon → Action (Except Fault α × Daemon)}
    (hstep : s₀.DatedTurn past fun _ => step) {answers : Except Fault (List α)}
    (h : Action.Runs (s.eachDaemon step) trace (answers, s')) : s₀.Leg past trace s' := by
  obtain ⟨log, ds', rfl, htour, rfl⟩ := tour_of_runs_eachDaemon h
  obtain ⟨hdated, hknown⟩ := hstep.tour htour hs
  exact .of_datedWork hdated hknown

theorem leg_of_runs_eachDaemonEffect {α : Type}
    {step : Daemon → Action (Except Fault α × Daemon)} (hstep : s₀.DatedTurn past fun _ => step)
    (h : Action.Runs (s.eachDaemonEffect step) trace (outcome, s')) : s₀.Leg past trace s' := by
  obtain ⟨log, answers, ds', rfl, htour, rfl, -⟩ := tour_of_runs_eachDaemonEffect h
  obtain ⟨hdated, hknown⟩ := hstep.tour htour hs
  exact .of_datedWork hdated hknown

theorem leg_of_runs_report (h : Action.Runs s.report trace s') : s₀.Leg past trace s' := by
  obtain ⟨first, last, ⟨answers, s₁⟩, rfl, hpass, hrest⟩ := Action.runs_bind_iff.mp h
  have hpassed := leg_of_runs_eachDaemon hs datedTurn_reportDaemon hpass
  refine hpassed.append ?_
  cases hcoordinator : s₁.coordinator with
  | none =>
    simp only [hcoordinator] at hrest
    obtain ⟨rfl, rfl⟩ := Action.runs_pure_iff.mp hrest
    exact .of_datedWork (List.forall_mem_nil _) hpassed.known
  | some c =>
    simp only [hcoordinator] at hrest
    obtain ⟨query, nothing, ⟨pid, p⟩, rfl, hpid, hend⟩ := Action.runs_bind_iff.mp hrest
    obtain ⟨rfl, rfl⟩ := Action.runs_pure_iff.mp hend
    rw [List.append_nil]
    exact .of_datedWork (fun e he => datedWork_of_processRequest
      (Action.Only.of_runs c.process.only_pid hpid e he)) hpassed.known

theorem leg_of_runs_applyRestartPolicy {flags : List Bool}
    (h : Action.Runs (s.applyRestartPolicy flags) trace (outcome, s')) :
    s₀.Leg past trace s' := by
  obtain ⟨log, answers, ds', rfl, htour, rfl, rfl⟩ := tour_of_runs_applyRestartPolicy h
  obtain ⟨hdated, hknown⟩ := (datedTurn_stopStep flags).tour htour hs
  exact .of_datedWork hdated hknown

theorem leg_of_runs_shutdown (h : Action.Runs s.shutdown trace (outcome, s')) :
    s₀.Leg past trace s' :=
  leg_of_runs_eachDaemonEffect hs datedTurn_shutdown h

/-- After the clock is read, what is rebuilt has the name of that reading. -/
theorem leg_of_runs_renew (h : Action.Runs s.renew trace (outcome, s')) :
    s₀.Leg past trace s' := by
  obtain ⟨named, rest, buildName, rfl, hname, hrest⟩ := Action.runs_bind_iff.mp h
  obtain ⟨now, rfl, rfl⟩ := clock_of_runs_currentBuildName hname
  have hread := Leg.clock now hs
  refine hread.append ?_
  have hstep : s₀.DatedTurn (past ++ readings [⟨.clock, now⟩])
      fun _ => rebuildDaemon now.buildName := datedTurn_rebuildDaemon List.getLast?_concat
  rcases runs_andThen hrest with ⟨fault, hrebuild, -⟩ |
    ⟨rebuild, restart, flags, s₁, rfl, hrebuild, hrestart⟩
  · exact leg_of_runs_eachDaemon hread.known hstep hrebuild
  · have hrebuilt := leg_of_runs_eachDaemon hread.known hstep hrebuild
    exact hrebuilt.append (leg_of_runs_applyRestartPolicy hrebuilt.known hrestart)

/-- A cycle is a leg if what follows it is. -/
theorem leg_of_runs_cycleThen {next : Supervisor → Action (Except Fault Unit × Supervisor)}
    (hnext : ∀ s past later, (∀ d ∈ s.daemons, s₀.Knows past d) →
      Action.Runs (next s) later (outcome, s') → s₀.Leg past later s')
    (h : Action.Runs (cycleThen next s) trace (outcome, s')) : s₀.Leg past trace s' := by
  rcases runs_andThen h with ⟨fault, hcall, -⟩ | ⟨call, rest, _, s₁, rfl, hcall, hrest⟩
  · exact leg_of_runs_eachDaemonEffect hs datedTurn_startDaemon hcall
  have hcalled := leg_of_runs_eachDaemonEffect hs datedTurn_startDaemon hcall
  refine hcalled.append ?_
  obtain ⟨report, rest, s₂, rfl, hreport, hpause⟩ := Action.runs_bind_iff.mp hrest
  have hreported := leg_of_runs_report hcalled.known hreport
  refine hreported.append ?_
  obtain ⟨wake, rest, rfl, hwake⟩ := Action.runs_request_bind_iff.mp hpause
  have hpaused : s₀.Leg _ [⟨.pause s₂.pollInterval, wake⟩] s₂ :=
    .of_datedWork (List.forall_mem_singleton.mpr ⟨nofun, dated_of_ne rfl nofun⟩) hreported.known
  rw [← List.singleton_append]
  refine hpaused.append ?_
  cases wake with
  | interrupted => exact leg_of_runs_shutdown hpaused.known hwake
  | elapsed =>
    rcases runs_andThen hwake with ⟨fault, hrenew, -⟩ | ⟨renewal, later, _, s₃, rfl, hrenew, hlater⟩
    · exact leg_of_runs_renew hpaused.known hrenew
    · have hrenewed := leg_of_runs_renew hpaused.known hrenew
      exact hrenewed.append (hnext s₃ _ later hrenewed.known hlater)

end

theorem leg_of_runs_cycles {remaining : Nat} {outcome : Except Fault Unit}
    (hs : ∀ d ∈ s.daemons, s₀.Knows past d)
    (h : Action.Runs (cycles remaining s) trace (outcome, s')) : s₀.Leg past trace s' := by
  induction remaining generalizing s past trace with
  | zero =>
    rw [cycles_zero_eq] at h
    exact leg_of_runs_cycleThen hs (fun _ _ _ hs hlater => leg_of_runs_shutdown hs hlater) h
  | succ remaining ih =>
    rw [cycles_succ_eq] at h
    exact leg_of_runs_cycleThen hs (fun _ _ _ hs hlater => ih hs hlater) h

/-- The coordinator is started before the clock is read. -/
theorem leg_of_runs_startCoordinator {outcome : Except Fault Unit}
    (hs : ∀ d ∈ s.daemons, s.Knows past d)
    (h : Action.Runs s.startCoordinator trace (outcome, s')) : s.Leg past trace s' := by
  have honly : Action.Only (ProcessRequest (s.MayStart past)) s.startCoordinator := by
    unfold startCoordinator
    cases hcoordinator : s.coordinator with
    | none => trivial
    | some c =>
      have hmay : s.MayStart past c.spec.executable := .inl ⟨c, hcoordinator, rfl⟩
      exact (c.process.only_start hmay c.spec.arguments).bind fun _ => trivial
  refine .of_datedWork (fun e he => datedWork_of_processRequest (honly.of_runs h e he)) ?_
  rw [daemons_of_runs_startCoordinator h]
  exact hs

/-- A run of a supervisor in which nothing is built yet is dated, however it ends. -/
theorem timed_of_runs_run {limit : Option Nat} {outcome : Except Fault Unit}
    (hfresh : ∀ d ∈ s.daemons, d.executable = none)
    (h : Action.Runs (s.run limit) trace (outcome, s')) : Timed s.Dated [] trace := by
  have hs : ∀ d ∈ s.daemons, s.Knows [] d := fun d hd => ⟨d, hd, rfl, rfl, fun path hpath => by
    rw [hfresh d hd] at hpath
    cases hpath⟩
  suffices hleg : s.Leg [] trace s' from hleg.timed
  rcases runs_andThen h with ⟨fault, hstart, -⟩ | ⟨start, rest, _, s₁, rfl, hstart, hrest⟩
  · exact leg_of_runs_startCoordinator hs hstart
  have hstarted := leg_of_runs_startCoordinator hs hstart
  refine hstarted.append ?_
  obtain ⟨named, rest, buildName, rfl, hname, hbuilding⟩ := Action.runs_bind_iff.mp hrest
  obtain ⟨now, rfl, rfl⟩ := clock_of_runs_currentBuildName hname
  have hread := Leg.clock now hstarted.known
  refine hread.append ?_
  have hstep : s.DatedTurn ([] ++ readings start ++ readings [⟨.clock, now⟩])
      fun _ d => d.refresh now.buildName := datedTurn_refresh List.getLast?_concat
  rcases runs_andThen hbuilding with ⟨fault, hbuild, -⟩ | ⟨build, later, _, s₂, rfl, hbuild, hcycles⟩
  · exact leg_of_runs_eachDaemonEffect hread.known hstep hbuild
  · have hbuilt := leg_of_runs_eachDaemonEffect hread.known hstep hbuild
    exact hbuilt.append (leg_of_runs_cycles hbuilt.known hcycles)

/-! ## Builds that keep apart -/

/-- No two builds of a run share a directory: the readings of the clock have different names; no
directory in which something was done before a reading is used after it, except for the sources; and
neither is the directory that a running binary is from. -/
structure BuildsApart (s : Supervisor) (trace : List Exchange) : Prop where
  names : ((readings trace).map LocalTime.buildName).Nodup
  directories : ∀ before now later, trace = before ++ ⟨.clock, now⟩ :: later →
    ∀ directory, directory ∉ s.sourceDirectories →
      (∃ e ∈ before, e.request.workplace? = some directory) →
      ∀ e ∈ later, e.request.workplace? ≠ some directory
  binaries : ∀ before now later, trace = before ++ ⟨.clock, now⟩ :: later →
    ∀ executable arguments reply, ⟨.spawn executable arguments, reply⟩ ∈ before →
      (∃ c, s.coordinator = some c ∧ executable = c.spec.executable) ∨
      ∃ d ∈ s.daemons, ∃ buildName : String,
        executable = (d.project.outputDir buildName).join d.binary.text ∧
        (d.project.outputDir buildName ∉ s.sourceDirectories →
          ∀ e ∈ later, e.request.workplace? ≠ some (d.project.outputDir buildName))

section

variable {before later : List Exchange} {directory : Path}

/-- What is done outside the sources before some reading is named after an earlier one. -/
theorem exists_name_before (h : Timed s.Dated [] (before ++ later))
    (hsource : directory ∉ s.sourceDirectories)
    (hdone : ∃ e ∈ before, e.request.workplace? = some directory) :
    ∃ (parent : Path) (past : LocalTime), directory = parent.join past.buildName ∧
      past ∈ readings before := by
  obtain ⟨e, he, hplace⟩ := hdone
  obtain ⟨sooner, between, rfl⟩ := List.append_of_mem he
  have hdated := h sooner e (between ++ later) (by simp)
  rcases hdated.workplace directory hplace with hmem | ⟨parent, past, hlast, hdirectory⟩
  · exact absurd hmem hsource
  · refine ⟨parent, past, hdirectory, ?_⟩
    rw [readings_append]
    exact List.mem_append_left _ (List.mem_of_getLast? hlast)

/-- What is done after some reading is named after that one or a later one. -/
theorem exists_name_after (h : Timed s.Dated [] (before ++ ⟨.clock, now⟩ :: later))
    (hsource : directory ∉ s.sourceDirectories)
    (hdone : ∃ e ∈ later, e.request.workplace? = some directory) :
    ∃ (parent : Path) (last : LocalTime), directory = parent.join last.buildName ∧
      last ∈ readings (⟨.clock, now⟩ :: later) := by
  obtain ⟨e, he, hplace⟩ := hdone
  obtain ⟨sooner, after, rfl⟩ := List.append_of_mem he
  have hdated := h (before ++ ⟨.clock, now⟩ :: sooner) e after (by simp)
  rcases hdated.workplace directory hplace with hmem | ⟨parent, last, hlast, hdirectory⟩
  · exact absurd hmem hsource
  refine ⟨parent, last, hdirectory, ?_⟩
  rw [List.nil_append, readings_append] at hlast
  change (readings before ++ now :: readings sooner).getLast? = some last at hlast
  rw [List.getLast?_append_of_ne_nil _ (List.cons_ne_nil _ _)] at hlast
  have hmem : last ∈ readings (⟨.clock, now⟩ :: sooner) := List.mem_of_getLast? hlast
  rw [← List.cons_append, readings_append]
  exact List.mem_append_left _ hmem

/-- If all readings have different names, directories that are named after an earlier reading and a
later one are different. -/
theorem join_buildName_ne
    (hnames : ((readings (before ++ later)).map LocalTime.buildName).Nodup)
    {past last : LocalTime} (hpast : past ∈ readings before) (hlast : last ∈ readings later)
    (parent parent' : Path) : parent.join past.buildName ≠ parent'.join last.buildName := by
  intro hsame
  rw [readings_append, List.map_append, List.nodup_append] at hnames
  exact hnames.2.2 _ (List.mem_map_of_mem hpast) _ (List.mem_map_of_mem hlast)
    (Path.join_name_inj past.separator_notMem_buildName last.separator_notMem_buildName hsame)

end

/-- The output directory of a daemon's project is among the sources, or it has the name. -/
theorem outputDir_of_notMem (hd : d ∈ s.daemons) {buildName : String}
    (h : d.project.outputDir buildName ∉ s.sourceDirectories) :
    d.project.outputDir buildName = d.project.repository.directory.join buildName := by
  refine (d.project.outputDir_eq_or buildName).resolve_left fun hrepository => h ?_
  rw [hrepository]
  exact List.mem_flatMap.mpr ⟨d, hd, d.project.directory_mem_sourceDirectories⟩

/-- If the readings of a run have different names, its builds keep apart. -/
theorem buildsApart_of_timed (htimed : Timed s.Dated [] trace)
    (hnames : ((readings trace).map LocalTime.buildName).Nodup) : s.BuildsApart trace where
  names := hnames
  directories := by
    rintro before now later rfl directory hsource hdone e he hplace
    obtain ⟨parent, past, hsooner, hpast⟩ := exists_name_before htimed hsource hdone
    obtain ⟨parent', last, hlater, hlast⟩ := exists_name_after htimed hsource ⟨e, he, hplace⟩
    exact join_buildName_ne hnames hpast hlast parent parent' (hsooner.symm.trans hlater)
  binaries := by
    rintro before now later rfl executable arguments reply hspawn
    obtain ⟨sooner, between, rfl⟩ := List.append_of_mem hspawn
    have hdated := htimed sooner ⟨.spawn executable arguments, reply⟩
      (between ++ ⟨.clock, now⟩ :: later) (by simp)
    refine (hdated.start executable arguments rfl).imp_right ?_
    rintro ⟨d, hd, past, hpast, rfl⟩
    refine ⟨d, hd, past.buildName, rfl, fun hsource e he hplace => ?_⟩
    obtain ⟨parent, last, hsame, hlast⟩ := exists_name_after htimed hsource ⟨e, he, hplace⟩
    rw [outputDir_of_notMem hd hsource] at hsame
    refine join_buildName_ne hnames ?_ hlast _ parent hsame
    rw [readings_append]
    exact List.mem_append_left _ hpast

/-! ## Readings that keep their distance -/

/-- The nanoseconds from 1970-01-01 00:00:00 UTC to an instant. -/
def sinceEpoch (t : Instant) : Int := t.seconds * 1000000000 + t.nanoseconds

/-- The clock was read at some instants, each at least an interval after the one before, and showed
them at one distance from UTC. -/
structure ReadAt (interval : Duration) (offset : Int) (instants : List Instant)
    (trace : List Exchange) : Prop where
  tellable : ∀ t ∈ instants, t.isTellable
  apart : instants.IsChain fun t u => sinceEpoch t + interval.nanoseconds ≤ sinceEpoch u
  shown : readings trace = instants.map (·.localTime offset)

/-- Readings that are a second or more apart have different names. -/
theorem ReadAt.nodup {interval : Duration} {offset : Int} {instants : List Instant}
    (h : ReadAt interval offset instants trace) (hlong : 1000000000 ≤ interval.nanoseconds) :
    ((readings trace).map LocalTime.buildName).Nodup := by
  have hlater : instants.Pairwise fun t u => sinceEpoch t + 1000000000 ≤ sinceEpoch u := by
    have htrans : ∀ {t u v : Instant}, sinceEpoch t + 1000000000 ≤ sinceEpoch u →
        sinceEpoch u + 1000000000 ≤ sinceEpoch v → sinceEpoch t + 1000000000 ≤ sinceEpoch v := by
      intro t u v htu huv
      omega
    refine @List.IsChain.pairwise _ _ _ ⟨htrans⟩ (h.apart.imp fun t u hapart => ?_)
    omega
  rw [h.shown, List.map_map]
  refine List.pairwise_map.mpr (hlater.imp_of_mem fun {t u} ht hu hapart hsame => ?_)
  have hsecond := Instant.second_eq_of_buildName_eq (h.tellable t ht) (h.tellable u hu) hsame
  unfold sinceEpoch at hapart
  omega

/-- The interval of a supervisor is the one that its sections spell out. -/
theorem pollInterval_of_ofConfig {sections : Sections} {cfg : Config} {cpus : Nat}
    (hvalid : sections.validate = .ok cfg) (hconfig : ofConfig cfg cpus = .ok s) :
    Duration.parse sections.settings.pollInterval = .ok s.pollInterval := by
  obtain ⟨ds, -, hconfig⟩ := bind_eq_ok_iff.mp hconfig
  obtain rfl := Except.ok.inj hconfig
  unfold Sections.validate at hvalid
  obtain ⟨-, -, hvalid⟩ := bind_eq_ok_iff.mp hvalid
  obtain ⟨-, -, hvalid⟩ := bind_eq_ok_iff.mp hvalid
  obtain ⟨-, -, hvalid⟩ := bind_eq_ok_iff.mp hvalid
  obtain ⟨-, -, hvalid⟩ := bind_eq_ok_iff.mp hvalid
  obtain ⟨-, -, hvalid⟩ := bind_eq_ok_iff.mp hvalid
  obtain ⟨-, -, hvalid⟩ := bind_eq_ok_iff.mp hvalid
  obtain ⟨poll, hpoll, hvalid⟩ := bind_eq_ok_iff.mp hvalid
  obtain ⟨stop, -, hvalid⟩ := bind_eq_ok_iff.mp hvalid
  obtain rfl := Except.ok.inj hvalid
  unfold Sections.interval at hpoll
  cases hparse : Duration.parse sections.settings.pollInterval with
  | error cause =>
    rw [hparse] at hpoll
    cases hpoll
  | ok d =>
    rw [hparse] at hpoll
    rw [← Except.ok.inj hpoll]

/-! ## Intervals below a second -/

/-- One daemon of one project, and some interval between cycles. -/
def hastySections (interval : String) : Sections :=
  { settings := { organization := "acme", pollInterval := interval }
    projects := soloConfig.projects
    daemons := soloConfig.daemons }

/-- Its supervisor. -/
def hasty (interval : Duration) : Supervisor := { solo with pollInterval := interval }

/-- The machine of that daemon as it stands still: the clock does not go on, and the child takes no
notice of signals. -/
def standstill (q : Request) (now : Nat × Option Nat) : q.Reply × (Nat × Option Nat) :=
  ((soloMachine q now).1, now)

/-- The same, with a remote that cannot be reached by polls. -/
def hastyMachine (q : Request) (now : Nat × Option Nat) : q.Reply × (Nat × Option Nat) :=
  match q with
  | .run _ ⟨"git", ["remote", "update"]⟩ =>
    (.error (.commandFailed "git remote update" 1 [] []), now)
  | q => standstill q now

/-- The supervisor once the daemon was built. -/
def hastyBuilt (interval : Duration) : Supervisor :=
  { hasty interval with
    daemons := [soloDaemon.withBinary ⟨"./svc/build1970-01-01-00:00:00/svcd"⟩] }

/-- The first build and one cycle on that machine. -/
def hastyTrace (interval : Duration) : List Exchange :=
  Action.traceWith hastyMachine ((hasty interval).approach 0) (0, some 7) ++
    Action.traceWith hastyMachine (cycles 0 (hastyBuilt interval)) (0, some 7)

/-- The one project comes after no other. -/
theorem cycle?_hasty (text : String) : (hastySections text).projects.graph.cycle? = none := by
  show soloConfig.projects.graph.cycle? = none
  exact ProjectTable.Ordered.cycle?_eq_none (List.pairwise_singleton _ _) (fun _ => 0) (by decide)

/-- Whatever the interval is, the sections are valid if it can be read. -/
theorem exists_ofConfig_hasty {text : String} {interval : Duration}
    (h : Duration.parse text = .ok interval) :
    ∃ cfg, (hastySections text).validate = .ok cfg ∧ ofConfig cfg 1 = .ok (hasty interval) := by
  refine ⟨{ hastySections text with pollInterval := interval, stopPolicy := .default }, ?_, rfl⟩
  have hcycle : Sections.checkCycle (hastySections text).projects = .ok () := by
    unfold Sections.checkCycle
    rw [cycle?_hasty]
  have hpoll : Sections.interval .pollInterval text = .ok interval := by
    unfold Sections.interval
    rw [h]
    rfl
  have hstop : Sections.interval .stopPollInterval "1s" = .ok (.ofSeconds 1) := rfl
  have horganization :
      Sections.demand (!Text.isBlankText "acme") .blankOrganization = .ok () := by rfl
  exact Sections.validate_eq_ok_iff.mpr
    ⟨⟨rfl, horganization, rfl⟩, ⟨rfl, rfl, hcycle⟩, interval, .ofSeconds 1, hpoll, hstop, rfl⟩

/-- It is a run with one cycle. -/
theorem runs_hastyTrace (interval : Duration) : ∃ result,
    Action.Runs ((hasty interval).run (some 1)) (hastyTrace interval) result := by
  have hlimit : 0 ≤ furtherCycles (some 1) := Nat.zero_le _
  have hbuilt : (Action.runWith hastyMachine ((hasty interval).approach 0) (0, some 7)).1 =
      (.underWay, hastyBuilt interval) := by rfl
  have hfirst := Action.runs_traceWith hastyMachine ((hasty interval).approach 0) (0, some 7)
  rw [hbuilt] at hfirst
  rw [run_eq_approach hlimit]
  exact ⟨_, Action.runs_bind_iff.mpr ⟨_, _, _, rfl, hfirst,
    Action.runs_traceWith hastyMachine (cycles 0 (hastyBuilt interval)) (0, some 7)⟩⟩

/-- Both readings are in the first second. -/
theorem readings_hastyTrace (interval : Duration) :
    readings (hastyTrace interval) = [.ofSeconds 0, .ofSeconds 0] := by
  have hfirst : readings (Action.traceWith hastyMachine ((hasty interval).approach 0) (0, some 7)) =
      [.ofSeconds 0] := by rfl
  have hsecond : readings (Action.traceWith hastyMachine (cycles 0 (hastyBuilt interval))
      (0, some 7)) = [.ofSeconds 0] := by
    rw [cycles_zero_eq]
    rfl
  rw [hastyTrace, readings_append, hfirst, hsecond]
  rfl

/-- Two readings in the first second are less than a second apart. -/
theorem readAt_of_readings {interval : Duration} (hshort : interval.nanoseconds < 1000000000)
    (h : readings trace = [.ofSeconds 0, .ofSeconds 0]) :
    ReadAt interval 0 [⟨0, 0⟩, ⟨0, interval.nanoseconds⟩] trace where
  tellable := by
    have hday : Instant.firstDay ≤ 0 ∧ 0 ≤ Instant.lastDay := by decide
    simp [Instant.isTellable, hday, hshort]
  apart := by simp [sinceEpoch]
  shown := by
    have hleap : interval.nanoseconds / 1000000000 = 0 := Nat.div_eq_of_lt hshort
    rw [h]
    simp [Instant.localTime, hleap]

/-! ## The main result -/

/-- Take any interval between cycles that can be read.  In every run of every supervisor that is
configured with it, however it ends and whatever the machine replies, as long as the readings of the
clock are at least the interval apart and seen at one offset from UTC, the readings have different
names and builds keep apart: if and only if the interval is a second or more. -/
theorem builds_apart_iff_second {text : String} {interval : Duration}
    (htext : Duration.parse text = .ok interval) :
    (∀ (sections : Sections) (cfg : Config) (cpus : Nat) (s s' : Supervisor) (limit : Option Nat)
      (trace : List Exchange) (outcome : Except Fault Unit) (offset : Int)
      (instants : List Instant), sections.settings.pollInterval = text →
      sections.validate = .ok cfg → ofConfig cfg cpus = .ok s →
      Action.Runs (s.run limit) trace (outcome, s') →
      ReadAt s.pollInterval offset instants trace → s.BuildsApart trace) ↔
    1000000000 ≤ interval.nanoseconds := by
  constructor
  · intro hapart
    refine Nat.le_of_not_lt fun hshort => ?_
    obtain ⟨cfg, hvalid, hconfig⟩ := exists_ofConfig_hasty htext
    obtain ⟨⟨outcome, s'⟩, hruns⟩ := runs_hastyTrace interval
    have hread := readAt_of_readings hshort (readings_hastyTrace interval)
    have hnames := (hapart (hastySections text) cfg 1 (hasty interval) s' (some 1) _ outcome 0 _ rfl
      hvalid hconfig hruns hread).names
    rw [readings_hastyTrace] at hnames
    simp at hnames
  · intro hlong sections cfg cpus s s' limit trace outcome offset instants hsections hvalid hconfig
      hruns hread
    have hinterval := pollInterval_of_ofConfig hvalid hconfig
    rw [hsections, htext] at hinterval
    rw [← Except.ok.inj hinterval] at hread
    refine buildsApart_of_timed ?_ (hread.nodup hlong)
    exact timed_of_runs_run (fun d hd => (fresh_of_ofConfig hconfig d hd).1) hruns

/-- A run with two cycles on a machine whose clock goes on by a minute in each. -/
def minutesTrace : List Exchange := Action.traceWith soloMachine (solo.run (some 2)) (0, none)

/-- With an interval of a minute its three builds keep apart. -/
theorem builds_apart_iff_second_minutes :
    Duration.parse "60s" = .ok (.ofSeconds 60) ∧
    (∃ outcome s', Action.Runs (solo.run (some 2)) minutesTrace (outcome, s')) ∧
    readings minutesTrace = [.ofSeconds 0, .ofSeconds 60, .ofSeconds 120] ∧
    solo.BuildsApart minutesTrace := by
  have htext : Duration.parse "60s" = .ok (.ofSeconds 60) := rfl
  obtain ⟨cfg, hvalid, hconfig⟩ := exists_ofConfig_hasty htext
  have hruns := Action.runs_traceWith soloMachine (solo.run (some 2)) (0, none)
  have hread : ReadAt solo.pollInterval 0 [⟨0, 0⟩, ⟨60, 0⟩, ⟨120, 0⟩] minutesTrace := by
    refine ⟨by decide, ?_, by decide +kernel⟩
    simp [sinceEpoch, solo, Duration.ofSeconds]
  exact ⟨htext, ⟨_, _, hruns⟩, by decide +kernel, (builds_apart_iff_second htext).mpr (by decide)
    (hastySections "60s") cfg 1 solo _ (some 2) _ _ 0 _ rfl hvalid hconfig hruns hread⟩

/-- A run with one cycle on the machine that stands still. -/
def standstillTrace : List Exchange :=
  Action.traceWith standstill ((hasty (.ofMillis 10)).run (some 1)) (0, some 7)

/-- An interval of ten milliseconds is accepted, and with it the cycle after the first build has the
name of that build: it configures in the directory that the running daemon was started from. -/
theorem configures_where_daemon_runs :
    ∃ cfg outcome s', (hastySections "10ms").validate = .ok cfg ∧
      ofConfig cfg 1 = .ok (hasty (.ofMillis 10)) ∧
      Action.Runs ((hasty (.ofMillis 10)).run (some 1)) standstillTrace (outcome, s') ∧
      ReadAt (.ofMillis 10) 0 [⟨0, 0⟩, ⟨0, 10000000⟩] standstillTrace ∧
      ¬ ((readings standstillTrace).map LocalTime.buildName).Nodup ∧
      List.Sublist
        [.spawn ⟨"./svc/build1970-01-01-00:00:00/svcd"⟩ [], .status 7, .clock,
          .run ⟨"./svc/build1970-01-01-00:00:00"⟩
            ⟨"cmake", ["-DCMAKE_BUILD_TYPE=Release", "./svc"]⟩]
        (standstillTrace.map (·.request)) := by
  obtain ⟨cfg, hvalid, hconfig⟩ := exists_ofConfig_hasty (rfl : Duration.parse "10ms" = _)
  have hreadings : readings standstillTrace = [.ofSeconds 0, .ofSeconds 0] := by decide +kernel
  refine ⟨cfg, _, _, hvalid, hconfig, Action.runs_traceWith standstill _ (0, some 7),
    readAt_of_readings (by decide) hreadings, ?_, by decide +kernel⟩
  rw [hreadings]
  simp

end Supervisor

end DaemonKeeper
