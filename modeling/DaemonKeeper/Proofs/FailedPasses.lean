import DaemonKeeper.Proofs.BuildPlan
import DaemonKeeper.Proofs.LastStart
import DaemonKeeper.Proofs.RebuildPass
import DaemonKeeper.Proofs.RunStages
set_option autoImplicit false

/-!
# Passes that fail (SPEC §3.5)

A pass ends with the first turn that fails.  Its trace is that of the turns before it, which have
succeeded, and of what was done in that turn; the daemons after it have no part in it.  In the two
passes that build, a turn that fails leaves its daemon as it was, and no turn has anything to do
with processes.  So a fault finds every daemon running what it ran before, and the run ends with it.
-/

namespace DaemonKeeper

variable {trace : List Exchange} {fault : Fault} {buildName : String}

/-! ## Builds that fail, and builds that are completed -/

namespace Daemon

variable {d d' : Daemon}

/-- A build that fails leaves the daemon as it was. -/
theorem eq_of_runs_build_error
    (h : Action.Runs (d.build buildName) trace (.error fault, d')) : d' = d := by
  obtain ⟨recipe, last, outcome, rfl, -, hend⟩ := Action.runs_bind_iff.mp h
  cases outcome with
  | error cause => exact (Action.runs_pure_pair_iff.mp hend).2.2
  | ok path =>
    obtain ⟨-, hfault, -⟩ := Action.runs_pure_pair_iff.mp hend
    cases hfault

/-- So does one whose sources cannot be updated. -/
theorem eq_of_runs_refresh_error
    (h : Action.Runs (d.refresh buildName) trace (.error fault, d')) : d' = d := by
  obtain ⟨update, build, outcome, rfl, -, hbuild⟩ := Action.runs_bind_iff.mp h
  cases outcome with
  | error cause => exact (Action.runs_pure_pair_iff.mp hbuild).2.2
  | ok => exact eq_of_runs_build_error hbuild

/-- The sources are updated, the whole recipe is run, and then the binary in the output directory is
seen to be an executable file. -/
inductive Completed (d : Daemon) (buildName : String) : List Exchange → Path → Prop where
  | intro {update recipe : List Exchange} {path : Path} :
    Action.Runs d.cloneSources.attempt update (.ok ()) →
    Action.Runs (d.project.build buildName).attempt recipe
      (.ok (d.project.outputDir buildName)) →
    path = (d.project.outputDir buildName).join d.binary.text →
    Completed d buildName (update ++ (recipe ++ [⟨.isExecutable path, true⟩])) path

/-- A binary that was not found to be an executable file fails the build. -/
theorem runs_ensureExecutable_ok {path : Path}
    (h : Action.Runs (ensureExecutable path).attempt trace (.ok ())) :
    trace = [⟨.isExecutable path, true⟩] := by
  obtain ⟨first, second, found, rfl, hasked, hend⟩ := Task.runs_bind_ok_iff.mp h
  obtain ⟨found', rest, rfl, hlift⟩ := Action.runs_ask_iff.mp hasked
  obtain ⟨rfl, hfound⟩ := Action.runs_done_iff.mp hlift
  obtain rfl := Except.ok.inj hfound
  cases found with
  | true =>
    obtain ⟨rfl, -⟩ := Action.runs_done_iff.mp hend
    rfl
  | false => cases (Action.runs_done_iff.mp hend).2

/-- A build leaves the binary in the output directory, and the last that it asks is whether that is
an executable file. -/
theorem built_of_runs_buildBinary {path : Path}
    (h : Action.Runs (d.buildBinary buildName).attempt trace (.ok path)) :
    ∃ recipe, trace = recipe ++ [⟨.isExecutable path, true⟩] ∧
      Action.Runs (d.project.build buildName).attempt recipe
        (.ok (d.project.outputDir buildName)) ∧
      path = (d.project.outputDir buildName).join d.binary.text := by
  obtain ⟨recipe, check, output, rfl, hbuild, hcheck⟩ := Task.runs_bind_ok_iff.mp h
  obtain ⟨asking, last, _, rfl, hensure, hend⟩ := Task.runs_bind_ok_iff.mp hcheck
  obtain ⟨rfl, hpath⟩ := Action.runs_done_iff.mp hend
  obtain rfl := Except.ok.inj hpath
  obtain rfl := ((d.project.follows_build buildName).ok _ _ hbuild).1
  obtain rfl := runs_ensureExecutable_ok hensure
  exact ⟨recipe, rfl, hbuild, rfl⟩

/-- What a refresh leaves is a binary of a completed build. -/
theorem Refreshed.completed {update recipe : List Exchange} {path : Path}
    (h : Refreshed d buildName update recipe path) :
    Completed d buildName (update ++ recipe) path := by
  obtain ⟨commands, rfl, hbuild, hpath⟩ := built_of_runs_buildBinary h.built
  exact .intro h.updated hbuild hpath

theorem Completed.processFree {turn : List Exchange} {path : Path}
    (h : Completed d buildName turn path) : ∀ e ∈ turn, e.request.aboutProcess = false := by
  obtain ⟨hupdate, hbuild, -⟩ := h
  refine List.forall_mem_append.mpr ⟨?_, List.forall_mem_append.mpr ⟨?_, ?_⟩⟩
  · exact Action.Only.of_runs d.project.processFree_cloneSources hupdate
  · exact Action.Only.of_runs (d.project.processFree_build buildName) hbuild
  · exact List.forall_mem_singleton.mpr rfl

end Daemon

namespace Supervisor

/-! ## The two passes that build -/

/-- The two passes that build. -/
inductive BuildPass where
  /-- Every daemon is built. -/
  | all
  /-- Those are rebuilt whose sources have new commits upstream. -/
  | changed
  deriving DecidableEq, Repr

namespace BuildPass

/-- What a pass tells of each daemon. -/
abbrev Answer : BuildPass → Type
  | .all => Unit
  | .changed => Bool

/-- The pass over the daemons of a supervisor ends in a fault. -/
def Fails (s : Supervisor) (buildName : String) (trace : List Exchange) (fault : Fault)
    (s' : Supervisor) : BuildPass → Prop
  | .all => Action.Runs (s.buildAll buildName) trace (.error fault, s')
  | .changed => Action.Runs (s.rebuildChanged buildName) trace (.error fault, s')

/-- The turn of a daemon ends in a fault, and leaves the daemon as it was. -/
def TurnFails (pass : BuildPass) (buildName : String) (fault : Fault) (d : Daemon)
    (turn : List Exchange) : Prop :=
  match pass with
  | .all => Action.Runs (d.refresh buildName) turn (.error fault, d)
  | .changed => Action.Runs (rebuildDaemon buildName d) turn (.error fault, d)

/-- The turn of a daemon is done: nothing is new upstream and nothing is changed, or the daemon has
the binary of a completed build. -/
inductive TurnDone (buildName : String) (d : Daemon) :
    BuildPass → List Exchange → Daemon → Prop where
  | built {turn : List Exchange} {path : Path} :
    d.Completed buildName turn path → TurnDone buildName d .all turn (d.withBinary path)
  | unchanged {poll : List Exchange} :
    Action.Runs d.hasUpstreamChange.attempt poll (.ok false) →
    TurnDone buildName d .changed poll d
  | rebuilt {poll turn : List Exchange} {path : Path} :
    Action.Runs d.hasUpstreamChange.attempt poll (.ok true) → d.Completed buildName turn path →
    TurnDone buildName d .changed (poll ++ turn) (d.withBinary path)

variable {pass : BuildPass} {d d' : Daemon} {turn : List Exchange} {s s' : Supervisor}

theorem TurnDone.process_eq (h : TurnDone buildName d pass turn d') : d'.process = d.process := by
  cases h <;> rfl

theorem TurnDone.processFree (h : TurnDone buildName d pass turn d') :
    ∀ e ∈ turn, e.request.aboutProcess = false := by
  cases h with
  | built hbuild => exact hbuild.processFree
  | unchanged hpoll => exact processFree_of_poll hpoll
  | rebuilt hpoll hbuild =>
    exact List.forall_mem_append.mpr ⟨processFree_of_poll hpoll, hbuild.processFree⟩

/-- A refresh has nothing to do with processes, however it ends. -/
theorem processFree_refresh (d : Daemon) (buildName : String) :
    Action.Only (fun q => q.aboutProcess = false) (d.refresh buildName) := by
  refine Action.Only.bind d.project.processFree_cloneSources fun updated => ?_
  cases updated with
  | error cause => trivial
  | ok =>
    refine Action.Only.bind (d.processFree_buildBinary buildName) fun built => ?_
    cases built <;> trivial

/-- Neither has a rebuild. -/
theorem processFree_rebuildDaemon (d : Daemon) (buildName : String) :
    Action.Only (fun q => q.aboutProcess = false) (rebuildDaemon buildName d) := by
  refine Action.Only.bind d.project.processFree_hasUpstreamChange fun polled => ?_
  rcases polled with cause | changed
  · trivial
  cases changed with
  | false => trivial
  | true => exact (processFree_refresh d buildName).bind fun _ => trivial

theorem TurnFails.processFree (h : pass.TurnFails buildName fault d turn) :
    ∀ e ∈ turn, e.request.aboutProcess = false := by
  cases pass with
  | all => exact (processFree_refresh d buildName).of_runs h
  | changed => exact (processFree_rebuildDaemon d buildName).of_runs h

/-- A turn that fails while a daemon is rebuilt leaves it as it was, too. -/
theorem eq_of_runs_rebuildDaemon_error
    (h : Action.Runs (rebuildDaemon buildName d) turn (.error fault, d')) : d' = d := by
  obtain ⟨poll, rest, polled, rfl, -, hrest⟩ := Action.runs_bind_iff.mp h
  rcases polled with cause | changed
  · exact (Action.runs_pure_pair_iff.mp hrest).2.2
  cases changed with
  | false => exact (Action.runs_pure_pair_iff.mp hrest).2.2
  | true =>
    obtain ⟨build, last, ⟨built, d₁⟩, rfl, hbuild, hend⟩ := Action.runs_bind_iff.mp hrest
    obtain ⟨-, hbuilt, rfl⟩ := Action.runs_pure_pair_iff.mp hend
    cases built with
    | error cause => exact Daemon.eq_of_runs_refresh_error hbuild
    | ok => cases hbuilt

/-- What either pass does to one daemon. -/
def step (buildName : String) :
    (pass : BuildPass) → Daemon → Action (Except Fault pass.Answer × Daemon)
  | .all, d => d.refresh buildName
  | .changed, d => rebuildDaemon buildName d

/-- A turn that succeeds is done. -/
theorem turnDone_of_runs_step {a : pass.Answer}
    (h : Action.Runs (pass.step buildName d) turn (.ok a, d')) :
    TurnDone buildName d pass turn d' := by
  cases pass with
  | all =>
    obtain ⟨update, recipe, path, rfl, hrefreshed, rfl⟩ := Daemon.refreshed_of_runs_refresh h
    exact .built hrefreshed.completed
  | changed =>
    cases renewed_of_runs_rebuildDaemon h with
    | unchanged hpoll => exact .unchanged hpoll
    | rebuilt hpoll hrefreshed => exact .rebuilt hpoll hrefreshed.completed

/-- A turn that fails leaves the daemon as it was. -/
theorem turnFails_of_runs_step (h : Action.Runs (pass.step buildName d) turn (.error fault, d')) :
    d' = d ∧ pass.TurnFails buildName fault d turn := by
  cases pass with
  | all =>
    obtain rfl := Daemon.eq_of_runs_refresh_error h
    exact ⟨rfl, h⟩
  | changed =>
    obtain rfl := eq_of_runs_rebuildDaemon_error h
    exact ⟨rfl, h⟩

/-- Either pass, when it fails, ends with the turn that has failed. -/
theorem fails_of_fails (h : pass.Fails s buildName trace fault s') :
    ∃ log count, Log.trace log = trace ∧ s' = s.withDaemons s'.daemons ∧
      Tour.Fails (fun _ => pass.step buildName) 0 s.daemons log fault count s'.daemons := by
  cases pass with
  | all =>
    obtain ⟨log, answers, ds', rfl, htour, rfl, hfault⟩ := tour_of_runs_eachDaemonEffect h
    cases answers with
    | ok as => cases hfault
    | error cause =>
      obtain rfl := Except.error.inj hfault
      obtain ⟨count, hfails⟩ := htour.fails
      exact ⟨log, count, rfl, rfl, hfails⟩
  | changed =>
    obtain ⟨log, ds', rfl, htour, rfl⟩ := tour_of_runs_eachDaemon h
    obtain ⟨count, hfails⟩ := htour.fails
    exact ⟨log, count, rfl, rfl, hfails⟩

/-! ## The moments at which a run builds -/

/-- What a run has exchanged when one of the two passes begins, with the name that the pass uses and
the supervisor it begins with.  All daemons are built once the coordinator was started; in every
cycle those that have changed are rebuilt after the pause. -/
inductive Reached (s₀ : Supervisor) (limit : Option Nat) :
    BuildPass → List Exchange → String → Supervisor → Prop where
  | boot {start : List Exchange} {now : Calendar.LocalTime} {s : Supervisor} :
    Action.Runs s₀.startCoordinator start (.ok (), s) →
    Reached s₀ limit .all (start ++ [⟨.clock, now⟩]) now.buildName s
  | cycle {k : Nat} {before call told : List Exchange} {now : Calendar.LocalTime}
      {s₁ s₂ s : Supervisor} :
    k ≤ furtherCycles limit → Action.Runs (s₀.approach k) before (.underWay, s₁) →
    Action.Runs s₁.ensureRunning call (.ok (), s₂) → Action.Runs s₂.report told s →
    Reached s₀ limit .changed
      (before ++ (call ++ (told ++ [⟨.pause s.pollInterval, .elapsed⟩, ⟨.clock, now⟩])))
      now.buildName s

end BuildPass

section

variable {α β : Type} {first second : List Exchange}

/-- What follows a first part with a given trace is the second part. -/
theorem runs_bind_append_iff {x : Action α} {f : α → Action β} {a : α} {b : β}
    (hx : Action.Runs x first a) :
    Action.Runs (x >>= f) (first ++ second) b ↔ Action.Runs (f a) second b :=
  ⟨Action.runs_of_runs_bind hx, fun h => Action.runs_bind_iff.mpr ⟨first, second, a, rfl, hx, h⟩⟩

variable {x : Action (Except Fault α × Supervisor)} {s₁ s' : Supervisor}
variable {next : α → Supervisor → Action (Except Fault β × Supervisor)} {outcome : Except Fault β}

/-- After a part that has failed nothing follows. -/
theorem runs_andThen_append_iff_of_error (hx : Action.Runs x first (.error fault, s₁)) :
    Action.Runs (andThen x next) (first ++ second) (outcome, s') ↔
      second = [] ∧ outcome = .error fault ∧ s' = s₁ :=
  (runs_bind_append_iff hx).trans Action.runs_pure_pair_iff

end

/-- The clock is read for the name of a build. -/
theorem runs_currentBuildName (now : Calendar.LocalTime) :
    Action.Runs currentBuildName [⟨.clock, now⟩] now.buildName :=
  Action.runs_request_bind_iff.mpr ⟨now, [], rfl, .done _⟩

/-- A cycle that is followed by something fails with its rebuild. -/
theorem runs_cycleThen_iff_of_fails {next : Supervisor → Action (Except Fault Unit × Supervisor)}
    {s₁ s₂ s s' s'' : Supervisor} {call told more : List Exchange} {now : Calendar.LocalTime}
    {outcome : Except Fault Unit} (hcall : Action.Runs s₁.ensureRunning call (.ok (), s₂))
    (htold : Action.Runs s₂.report told s)
    (hfails : Action.Runs (s.rebuildChanged now.buildName) trace (.error fault, s')) :
    Action.Runs (cycleThen next s₁)
        (call ++ (told ++ ⟨.pause s.pollInterval, .elapsed⟩ :: ⟨.clock, now⟩ :: (trace ++ more)))
        (outcome, s'') ↔
      more = [] ∧ outcome = .error fault ∧ s'' = s' := by
  have hrenew : Action.Runs s.renew (⟨.clock, now⟩ :: trace) (.error fault, s') :=
    (runs_bind_append_iff (runs_currentBuildName now)).mpr (Action.runs_bind_iff.mpr
      ⟨trace, [], _, (List.append_nil trace).symm, hfails, .done _⟩)
  have hwake : Action.Runs (Action.request (.pause s.pollInterval))
      [⟨.pause s.pollInterval, .elapsed⟩] .elapsed := Action.runs_request_iff.mpr rfl
  refine (runs_bind_append_iff hcall).trans ((runs_bind_append_iff htold).trans ?_)
  exact (runs_bind_append_iff hwake).trans (runs_andThen_append_iff_of_error hrenew)

/-- A run in which a pass fails ends with that: there is such a run, and nothing follows in any. -/
theorem BuildPass.Reached.runs_iff {pass : BuildPass} {s₀ s s' s'' : Supervisor}
    {limit : Option Nat} {before more : List Exchange} {outcome : Except Fault Unit}
    (hreached : pass.Reached s₀ limit before buildName s)
    (hfails : pass.Fails s buildName trace fault s') :
    Action.Runs (s₀.run limit) (before ++ (trace ++ more)) (outcome, s'') ↔
      more = [] ∧ outcome = .error fault ∧ s'' = s' := by
  cases hreached with
  | @boot start now _ hstart =>
    rw [List.append_assoc]
    refine (runs_bind_append_iff hstart).trans ?_
    refine (runs_bind_append_iff (runs_currentBuildName now)).trans ?_
    exact runs_andThen_append_iff_of_error hfails
  | @cycle k before call told now s₁ s₂ _ hk hbefore hcall htold =>
    have hcycles : ∃ next, cycles (furtherCycles limit - k) s₁ = cycleThen next s₁ := by
      cases furtherCycles limit - k with
      | zero => exact ⟨_, cycles_zero_eq s₁⟩
      | succ remaining => exact ⟨_, cycles_succ_eq remaining s₁⟩
    obtain ⟨next, hnext⟩ := hcycles
    rw [run_eq_approach hk, List.append_assoc, List.append_assoc, List.append_assoc]
    refine (runs_bind_append_iff hbefore).trans ?_
    show Action.Runs (cycles (furtherCycles limit - k) s₁) _ _ ↔ _
    rw [hnext]
    exact runs_cycleThen_iff_of_fails hcall htold hfails

/-! ## The main result -/

/-- If one of the two passes that build ends in a fault, in whatever state it has begun and whatever
the machine has replied, then:

* the fault has ended the turn of one daemon, and nothing was exchanged but in the turns of the
  daemons before it and in its own;
* it and all later daemons are as they were; each earlier one has its old binary because nothing was
  new upstream, or that of a build that was completed and checked in its turn;
* no daemon's process has changed, nothing was exchanged about processes, and nothing but the
  daemons is different; and
* wherever in a run this happens, the run ends with that fault and with nothing more exchanged. -/
theorem failed_pass_disturbs_no_daemon {pass : BuildPass} {s s' : Supervisor}
    (h : pass.Fails s buildName trace fault s') :
    ∃ (turns : List (List Exchange)) (last : List Exchange) (failed : Daemon),
      trace = turns.flatten ++ last ∧
      s.daemons[turns.length]? = some failed ∧ pass.TurnFails buildName fault failed last ∧
      s' = s.withDaemons s'.daemons ∧ s'.daemons.length = s.daemons.length ∧
      (∀ j, turns.length ≤ j → s'.daemons[j]? = s.daemons[j]?) ∧
      (∀ j d, j < turns.length → s.daemons[j]? = some d → ∃ turn d', turns[j]? = some turn ∧
        s'.daemons[j]? = some d' ∧ BuildPass.TurnDone buildName d pass turn d') ∧
      (∀ (j : Nat) d d', s.daemons[j]? = some d → s'.daemons[j]? = some d' →
        d'.process = d.process) ∧
      (∀ e ∈ trace, e.request.aboutProcess = false) ∧
      ∀ s₀ limit before, pass.Reached s₀ limit before buildName s → ∀ more outcome s'',
        Action.Runs (s₀.run limit) (before ++ (trace ++ more)) (outcome, s'') ↔
          more = [] ∧ outcome = .error fault ∧ s'' = s' := by
  obtain ⟨log, count, htrace, hsame, hfails⟩ := BuildPass.fails_of_fails h
  obtain ⟨failed, failed', hfailed, hfailed', hlast⟩ := hfails.failed
  obtain ⟨rfl, hlast⟩ := BuildPass.turnFails_of_runs_step hlast
  have hcount : (log.turns 0 count).length = count := log.length_turns 0 count
  -- The daemons are those that have had their turn, the one whose turn has failed, and the rest.
  have hdone : ∀ (j : Nat) d, j < count → s.daemons[j]? = some d → ∃ d', s'.daemons[j]? = some d' ∧
      BuildPass.TurnDone buildName d pass (log.own (.daemon j)) d' := by
    intro j d hj hd
    obtain ⟨a, d', hd', hruns⟩ := hfails.earlier j d hj hd
    rw [Nat.zero_add] at hruns
    exact ⟨d', hd', BuildPass.turnDone_of_runs_step hruns⟩
  have hkept : ∀ j, count ≤ j → s'.daemons[j]? = s.daemons[j]? := by
    intro j hj
    rcases Nat.eq_or_lt_of_le hj with rfl | hj
    · rw [hfailed, hfailed']
    · exact hfails.later j hj
  rw [Nat.zero_add] at hlast
  refine ⟨log.turns 0 count, log.own (.daemon count), failed', ?_, ?_, hlast, hsame,
    hfails.length_daemons, ?_, ?_, ?_, ?_, ?_⟩
  · rw [← htrace, hfails.trace_eq, Nat.zero_add]
  · rwa [hcount]
  · rwa [hcount]
  · intro j d hj hd
    rw [hcount] at hj
    obtain ⟨d', hd', hturn⟩ := hdone j d hj hd
    have hat := log.getElem?_turns (i := 0) hj
    rw [Nat.zero_add] at hat
    exact ⟨_, d', hat, hd', hturn⟩
  · intro j d d' hd hd'
    by_cases hj : j < count
    · obtain ⟨e, he, hturn⟩ := hdone j d hj hd
      obtain rfl := Option.some.inj (hd'.symm.trans he)
      exact hturn.process_eq
    · rw [hkept j (Nat.le_of_not_lt hj), hd] at hd'
      rw [Option.some.inj hd']
  · rw [← htrace, hfails.trace_eq, Nat.zero_add]
    refine List.forall_mem_append.mpr ⟨List.forall_mem_flatten.mpr ?_, hlast.processFree⟩
    intro turn hturn
    obtain ⟨j, hj, rfl⟩ := List.mem_map.mp hturn
    have hcount : count < s.daemons.length := (List.getElem?_eq_some_iff.mp hfailed).1
    have hj : j < count := by simpa using hj
    obtain ⟨d', -, hturn⟩ := hdone j _ hj (List.getElem?_eq_getElem (Nat.lt_trans hj hcount))
    exact hturn.processFree
  · exact fun s₀ limit before hreached more outcome s'' => hreached.runs_iff h

/-- The machine of two daemons of one project, on which the binary is found only once. -/
def flakyMachine (q : Request) (found : Bool) : q.Reply × Bool :=
  match q with
  | .isExecutable _ => (!found, true)
  | q => ((pairMachine q true).1, found)

/-- The first daemon has its new binary, the second keeps what it had, and the run is over. -/
theorem failed_pass_disturbs_no_daemon_flaky :
    ∃ trace s', BuildPass.all.Fails pair "build1970-01-01-00:00:00" trace
        (.notExecutable ⟨"./svc/bin/svcd"⟩) s' ∧
      s'.daemons.map (·.executable) = [some ⟨"./svc/bin/svcd"⟩, none] ∧
      (∀ e ∈ trace, e.request.aboutProcess = false) ∧
      Action.Runs (pair.run none) (⟨.clock, .ofSeconds 0⟩ :: trace)
        (.error (.notExecutable ⟨"./svc/bin/svcd"⟩), s') := by
  have hname : (Calendar.LocalTime.ofSeconds 0).buildName = "build1970-01-01-00:00:00" := rfl
  have hfails : BuildPass.all.Fails pair "build1970-01-01-00:00:00"
      (Action.traceWith flakyMachine (pair.buildAll "build1970-01-01-00:00:00") false)
      (.notExecutable ⟨"./svc/bin/svcd"⟩)
      (Action.runWith flakyMachine (pair.buildAll "build1970-01-01-00:00:00") false).1.2 :=
    Action.runs_traceWith flakyMachine _ false
  have hreached : BuildPass.all.Reached pair none [⟨.clock, .ofSeconds 0⟩]
      "build1970-01-01-00:00:00" pair := by
    have hstart : Action.Runs pair.startCoordinator [] (.ok (), pair) := .done _
    exact hname ▸ .boot hstart
  obtain ⟨turns, last, failed, -, -, -, -, -, -, -, -, hfree, hrun⟩ :=
    failed_pass_disturbs_no_daemon hfails
  refine ⟨_, _, hfails, rfl, hfree, ?_⟩
  have hend := (hrun pair none _ hreached [] _ _).mpr ⟨rfl, rfl, rfl⟩
  rwa [List.append_nil] at hend

end Supervisor

end DaemonKeeper
