import DaemonKeeper.Proofs.DaemonPasses
import DaemonKeeper.Proofs.RunStages
set_option autoImplicit false

/-!
# The logs of runs, however they end

A run may be broken off anywhere by a fault.  What it has done up to then is still a sequence of
turns of daemons, queries of the coordinator, and pauses of the loop, and its log can be read off.
Only the shutdown at the very end is of another kind, because it may kill.
-/

namespace DaemonKeeper

open Log ManagedProcess

/-! ## Turns of daemons -/

/-- What was done to a daemon was done to its process in the proper way, nothing was killed, and
nothing but the process and the known binary has changed. -/
structure Daemon.Attended (d : Daemon) (turn : List Exchange) (d' : Daemon) : Prop where
  keepsToChild : KeepsToChild d.process turn d'.process
  noKills : NoKills turn
  same : d' = { d with process := d'.process, executable := d'.executable }

namespace Daemon.Attended

variable {d d₁ d' : Daemon} {turn rest : List Exchange}

theorem refl (d : Daemon) : Attended d [] d := ⟨.refl d.process, .nil, rfl⟩

theorem append (h : Attended d turn d₁) (h' : Attended d₁ rest d') :
    Attended d (turn ++ rest) d' where
  keepsToChild := h.keepsToChild.append h'.keepsToChild
  noKills := h.noKills.append h'.noKills
  same := by
    rw [h'.same, h.same]

/-- Something that is not about processes may leave another binary. -/
theorem of_processFree (d : Daemon) (executable : Option Path)
    (h : ∀ e ∈ turn, e.request.aboutProcess = false) : Attended d turn { d with executable } :=
  ⟨.of_processFree h, .of_processFree h, rfl⟩

/-- A query of the process. -/
theorem of_asked {running : Bool} {p : ManagedProcess} (h : Asked d.process turn running p) :
    Attended d turn (d.withProcess p) :=
  ⟨h.keepsToChild, h.noKills, rfl⟩

end Daemon.Attended

namespace Daemon

variable {d d' : Daemon} {turn : List Exchange} {outcome : Except Fault Unit}

/-- A refresh is not about processes, and the daemon keeps its binary or gets a new one. -/
theorem attended_of_runs_refresh {buildName : String}
    (h : Action.Runs (d.refresh buildName) turn (outcome, d')) : Attended d turn d' := by
  obtain ⟨update, build, updated, rfl, hupdate, hbuild⟩ := Action.runs_bind_iff.mp h
  have hfree := Action.Only.of_runs d.project.processFree_cloneSources hupdate
  have hupdated : Attended d update d := .of_processFree d d.executable hfree
  refine hupdated.append ?_
  cases updated with
  | error fault =>
    obtain ⟨rfl, -, rfl⟩ := Action.runs_pure_pair_iff.mp hbuild
    exact .refl d'
  | ok =>
    obtain ⟨recipe, last, built, rfl, hrecipe, hend⟩ := Action.runs_bind_iff.mp hbuild
    have hfree := Action.Only.of_runs (d.processFree_buildBinary buildName) hrecipe
    cases built with
    | error fault =>
      obtain ⟨rfl, -, rfl⟩ := Action.runs_pure_pair_iff.mp hend
      rw [List.append_nil]
      exact .of_processFree d' d'.executable hfree
    | ok path =>
      obtain ⟨rfl, -, rfl⟩ := Action.runs_pure_pair_iff.mp hend
      rw [List.append_nil]
      exact .of_processFree d (some path) hfree

/-- Asking for a process id is a query. -/
theorem attended_of_runs_pid {pid : Int} (h : Action.Runs d.pid turn (pid, d')) :
    Attended d turn d' := by
  obtain ⟨running, p, hasked, rfl⟩ := asked_of_runs_pid h
  exact .of_asked hasked

/-- Starting a daemon unless it runs is a query, and then perhaps a start. -/
theorem attended_of_runs_ensureStarted {answer : Except Fault Bool}
    (h : Action.Runs d.ensureStarted turn (answer, d')) : Attended d turn d' := by
  obtain ⟨asking, starting, ⟨running, d₁⟩, rfl, hask, hstart⟩ := Action.runs_bind_iff.mp h
  obtain ⟨query, last, ⟨told, p⟩, rfl, hquery, hend⟩ := Action.runs_bind_iff.mp hask
  obtain ⟨rfl, rfl, rfl⟩ := Action.runs_pure_pair_iff.mp hend
  rw [List.append_nil]
  refine (Attended.of_asked (asked_of_runs_isRunning hquery)).append ?_
  cases running with
  | true =>
    obtain ⟨rfl, -, rfl⟩ := Action.runs_pure_pair_iff.mp hstart
    exact .refl _
  | false =>
    simp only [Bool.false_eq_true, if_false] at hstart
    split at hstart
    · obtain ⟨rfl, -, rfl⟩ := Action.runs_pure_pair_iff.mp hstart
      exact .refl _
    · obtain ⟨start, last, ⟨started, q⟩, rfl, hspawn, hend⟩ := Action.runs_bind_iff.mp hstart
      obtain ⟨rfl, -, rfl⟩ := Action.runs_pure_pair_iff.mp hend
      rw [List.append_nil]
      have hstarted := started_of_runs_start hspawn
      exact ⟨hstarted.keepsToChild, hstarted.noKills, rfl⟩

end Daemon

namespace Supervisor

/-- What a run may do to a daemon before it shuts down. -/
inductive Turn (d : Daemon) : List Exchange → Daemon → Prop
  | passed : Turn d [] d
  | refreshed {buildName : String} {turn : List Exchange} {outcome : Except Fault Unit}
      {d' : Daemon} : Action.Runs (d.refresh buildName) turn (outcome, d') → Turn d turn d'
  | started {turn : List Exchange} {outcome : Except Fault Unit} {d' : Daemon} :
    Action.Runs (startDaemon d) turn (outcome, d') → Turn d turn d'
  | reported {turn : List Exchange} {outcome : Except Fault Int} {d' : Daemon} :
    Action.Runs (reportDaemon d) turn (outcome, d') → Turn d turn d'
  | rebuilt {buildName : String} {turn : List Exchange} {outcome : Except Fault Bool}
      {d' : Daemon} : Action.Runs (rebuildDaemon buildName d) turn (outcome, d') → Turn d turn d'
  | stopped {turn : List Exchange} {outcome : Except Fault Unit} {d' : Daemon} :
    Action.Runs d.stop turn (outcome, d') → Turn d turn d'

/-- Whatever that is, the daemon is attended to. -/
theorem Turn.attended {d d' : Daemon} {turn : List Exchange} (h : Turn d turn d') :
    d.Attended turn d' := by
  cases h with
  | passed => exact .refl d
  | refreshed h => exact Daemon.attended_of_runs_refresh h
  | started h =>
    obtain ⟨ensuring, telling, ⟨started, d₁⟩, rfl, hensure, htell⟩ := Action.runs_bind_iff.mp h
    refine (Daemon.attended_of_runs_ensureStarted hensure).append ?_
    rcases started with fault | started
    · obtain ⟨rfl, -, rfl⟩ := Action.runs_pure_pair_iff.mp htell
      exact .refl d'
    cases started with
    | false =>
      obtain ⟨rfl, -, rfl⟩ := Action.runs_pure_pair_iff.mp htell
      exact .refl d'
    | true =>
      obtain ⟨asking, last, ⟨pid, d₂⟩, rfl, hpid, hend⟩ := Action.runs_bind_iff.mp htell
      obtain ⟨rfl, -, rfl⟩ := Action.runs_pure_pair_iff.mp hend
      rw [List.append_nil]
      exact Daemon.attended_of_runs_pid hpid
  | reported h =>
    obtain ⟨running, p, hasked, rfl⟩ := asked_of_runs_reportDaemon h
    exact .of_asked hasked
  | rebuilt h =>
    obtain ⟨poll, rest, polled, rfl, hpoll, hrest⟩ := Action.runs_bind_iff.mp h
    have hfree := Action.Only.of_runs d.project.processFree_hasUpstreamChange hpoll
    have hpolled : d.Attended poll d := .of_processFree d d.executable hfree
    refine hpolled.append ?_
    rcases polled with fault | changed
    · obtain ⟨rfl, -, rfl⟩ := Action.runs_pure_pair_iff.mp hrest
      exact .refl d'
    cases changed with
    | false =>
      obtain ⟨rfl, -, rfl⟩ := Action.runs_pure_pair_iff.mp hrest
      exact .refl d'
    | true =>
      obtain ⟨build, last, ⟨built, d₁⟩, rfl, hbuild, hend⟩ := Action.runs_bind_iff.mp hrest
      obtain ⟨rfl, -, rfl⟩ := Action.runs_pure_pair_iff.mp hend
      rw [List.append_nil]
      exact Daemon.attended_of_runs_refresh hbuild
  | stopped h =>
    obtain ⟨p, hstopped, rfl⟩ := Daemon.stopped_of_runs_stop h
    exact ⟨hstopped.keepsToChild, hstopped.noKills, rfl⟩

variable {α : Type} {step : Nat → Daemon → Action (Except Fault α × Daemon)}
variable {ds ds' : List Daemon} {trace : List Exchange}

/-! ## Stretches of runs -/

/-- What the parties of a supervisor hold. -/
def holdings (s : Supervisor) : Holdings
  | .loop => none
  | .coordinator => s.coordinator.bind fun c => c.process.child
  | .daemon i => s.daemons[i]?.bind fun d => d.process.child

/-- The same supervisor with the coordinator's process as it is now. -/
def withCoordinator (s : Supervisor) (c : Coordinator) (p : ManagedProcess) : Supervisor :=
  { s with coordinator := some { c with process := p } }

/-- A stretch of a run, with its log and the supervisor after it: turns of daemons of some kind,
queries of the coordinator's process, and what the loop itself asks for. -/
inductive Logged (kind : Daemon → List Exchange → Daemon → Prop) :
    Supervisor → Log → Supervisor → Prop
  | refl (s : Supervisor) : Logged kind s [] s
  | turn {s s' : Supervisor} {i : Nat} {d d' : Daemon} {turn : List Exchange} {log : Log} :
    s.daemons[i]? = some d → kind d turn d' →
    Logged kind (s.withDaemons (s.daemons.set i d')) log s' →
    Logged kind s (entries (.daemon i) turn ++ log) s'
  | query {s s' : Supervisor} {c : Coordinator} {query : List Exchange} {running : Bool}
      {p : ManagedProcess} {log : Log} :
    s.coordinator = some c → Asked c.process query running p →
    Logged kind (s.withCoordinator c p) log s' →
    Logged kind s (entries .coordinator query ++ log) s'
  | wait {s s' : Supervisor} {e : Exchange} {log : Log} :
    e.request.aboutProcess = false → Logged kind s log s' →
    Logged kind s (entries .loop [e] ++ log) s'

variable {kind : Daemon → List Exchange → Daemon → Prop} {s s₁ s' : Supervisor} {log log' : Log}

/-- Two stretches in turn are one. -/
theorem Logged.append (h : Logged kind s log s₁) (h' : Logged kind s₁ log' s') :
    Logged kind s (log ++ log') s' := by
  induction h with
  | refl s => exact h'
  | turn hd hturn _ ih =>
    rw [List.append_assoc]
    exact .turn hd hturn (ih h')
  | query hc hasked _ ih =>
    rw [List.append_assoc]
    exact .query hc hasked (ih h')
  | wait he _ ih =>
    rw [List.append_assoc]
    exact .wait he (ih h')

/-- Every party has dealt with its own child only, and holds in the end what the log says. -/
structure Recorded (s : Supervisor) (log : Log) (s' : Supervisor) : Prop where
  kept : Kept s.holdings log
  holds : s'.holdings = s.holdings.after log

namespace Recorded

theorem refl (s : Supervisor) : Recorded s [] s := ⟨.nil _, rfl⟩

theorem append (h : Recorded s log s₁) (h' : Recorded s₁ log' s') :
    Recorded s (log ++ log') s' where
  kept := by
    have hrest := h'.kept
    rw [h.holds] at hrest
    exact Kept.append_iff.mpr ⟨h.kept, hrest⟩
  holds := by rw [h'.holds, h.holds, Holdings.after_append]

/-- The turn of a daemon is recorded under its index. -/
theorem of_daemon {i : Nat} {d d' : Daemon} {turn : List Exchange} (hd : s.daemons[i]? = some d)
    (h : KeepsToChild d.process turn d'.process) :
    Recorded s (entries (.daemon i) turn) (s.withDaemons (s.daemons.set i d')) := by
  have hheld : s.holdings (.daemon i) = d.process.child := by simp [holdings, hd]
  refine ⟨.entries (by rw [hheld]; exact h.proper), ?_⟩
  rw [Holdings.after_entries, hheld, ← h.child_eq]
  have hi : i < s.daemons.length := (List.getElem?_eq_some_iff.mp hd).1
  funext party
  by_cases hparty : party = .daemon i
  · simp [hparty, holdings, withDaemons, hi]
  · rw [Function.update_of_ne hparty]
    cases party with
    | loop => rfl
    | coordinator => rfl
    | daemon j =>
      have hne : i ≠ j := by
        rintro rfl
        exact hparty rfl
      simp [holdings, withDaemons, hne]

/-- What the coordinator's handle does is recorded as its own. -/
theorem of_coordinator {c : Coordinator} {p : ManagedProcess} {exchanged : List Exchange}
    (hc : s.coordinator = some c) (h : KeepsToChild c.process exchanged p) :
    Recorded s (entries .coordinator exchanged) (s.withCoordinator c p) := by
  have hheld : s.holdings .coordinator = c.process.child := by simp [holdings, hc]
  refine ⟨.entries (by rw [hheld]; exact h.proper), ?_⟩
  rw [Holdings.after_entries, hheld, ← h.child_eq]
  funext party
  by_cases hparty : party = .coordinator
  · simp [hparty, holdings, withCoordinator]
  · rw [Function.update_of_ne hparty]
    cases party with
    | loop => rfl
    | coordinator => exact absurd rfl hparty
    | daemon j => rfl

/-- What the loop asks for is not about processes. -/
theorem of_loop (s : Supervisor) {e : Exchange} (he : e.request.aboutProcess = false) :
    Recorded s (entries .loop [e]) s := by
  obtain ⟨hproper, hkept⟩ := proper_of_processFree (s.holdings .loop) he
  refine ⟨.entries ⟨hproper, trivial⟩, ?_⟩
  rw [Holdings.after_entries, held_cons, held_nil, hkept, Function.update_eq_self]

end Recorded

/-- A stretch of a run is recorded if the turns in it are proper. -/
theorem Logged.recorded (h : Logged kind s log s')
    (hkind : ∀ d turn d', kind d turn d' → KeepsToChild d.process turn d'.process) :
    Recorded s log s' := by
  induction h with
  | refl s => exact .refl s
  | turn hd hturn _ ih => exact (Recorded.of_daemon hd (hkind _ _ _ hturn)).append ih
  | query hc hasked _ ih => exact (Recorded.of_coordinator hc hasked.keepsToChild).append ih
  | @wait s _ _ _ he _ ih => exact (Recorded.of_loop s he).append ih

/-- A tour whose steps are of the kind is such a stretch. -/
theorem Tour.logged {i : Nat} {outcome : Except Fault (List α)} (h : Tour step i ds log outcome ds')
    (hkind : ∀ i d turn outcome d', Action.Runs (step i d) turn (outcome, d') → kind d turn d')
    (done : List Daemon) (hi : done.length = i) (s : Supervisor) (hs : s.daemons = done ++ ds) :
    Logged kind s log (s.withDaemons (done ++ ds')) := by
  induction h generalizing done s with
  | nil =>
    rw [← hs]
    exact .refl s
  | @failed i d d' turn fault rest hturn =>
    have hd : s.daemons[i]? = some d := by simp [hs, ← hi]
    have hset : s.daemons.set i d' = done ++ d' :: rest := by simp [hs, ← hi]
    have hlogged := Logged.turn hd (hkind i d turn _ d' hturn) (.refl _)
    rw [hset, List.append_nil] at hlogged
    exact hlogged
  | @cons i d d' turn a rest rest' log outcome hturn _ ih =>
    have hd : s.daemons[i]? = some d := by simp [hs, ← hi]
    have hset : s.daemons.set i d' = (done ++ [d']) ++ rest := by simp [hs, ← hi]
    refine .turn hd (hkind i d turn _ d' hturn) ?_
    have hrest := ih (done ++ [d']) (by simp [hi]) (s.withDaemons (s.daemons.set i d')) hset
    rw [List.append_assoc] at hrest
    exact hrest

/-- A pass whose steps are turns is a stretch of a run. -/
theorem logged_of_runs_eachDaemon {step : Daemon → Action (Except Fault α × Daemon)}
    {outcome : Except Fault (List α)} (h : Action.Runs (s.eachDaemon step) trace (outcome, s'))
    (hkind : ∀ d turn outcome d', Action.Runs (step d) turn (outcome, d') → kind d turn d') :
    ∃ log, Log.trace log = trace ∧ Logged kind s log s' := by
  obtain ⟨log, ds', rfl, htour, rfl⟩ := tour_of_runs_eachDaemon h
  exact ⟨log, rfl, htour.logged (fun _ => hkind) [] rfl s rfl⟩

theorem logged_of_runs_eachDaemonEffect {step : Daemon → Action (Except Fault α × Daemon)}
    {outcome : Except Fault Unit} (h : Action.Runs (s.eachDaemonEffect step) trace (outcome, s'))
    (hkind : ∀ d turn outcome d', Action.Runs (step d) turn (outcome, d') → kind d turn d') :
    ∃ log, Log.trace log = trace ∧ Logged kind s log s' := by
  obtain ⟨log, answers, ds', rfl, htour, rfl, -⟩ := tour_of_runs_eachDaemonEffect h
  exact ⟨log, rfl, htour.logged (fun _ => hkind) [] rfl s rfl⟩

/-- A report queries the daemons and the coordinator. -/
theorem logged_of_runs_report (h : Action.Runs s.report trace s') :
    ∃ log, Log.trace log = trace ∧ Logged Turn s log s' := by
  obtain ⟨first, last, ⟨outcome, s₁⟩, rfl, hpass, hrest⟩ := Action.runs_bind_iff.mp h
  obtain ⟨log, rfl, hlogged⟩ :=
    logged_of_runs_eachDaemon hpass fun _ _ _ _ hruns => Turn.reported hruns
  cases hcoordinator : s₁.coordinator with
  | none =>
    simp only [hcoordinator] at hrest
    obtain ⟨rfl, rfl⟩ := Action.runs_pure_iff.mp hrest
    exact ⟨log, (List.append_nil _).symm, hlogged⟩
  | some c =>
    simp only [hcoordinator] at hrest
    obtain ⟨query, end', ⟨pid, p⟩, rfl, hpid, hend⟩ := Action.runs_bind_iff.mp hrest
    obtain ⟨rfl, rfl⟩ := Action.runs_pure_iff.mp hend
    obtain ⟨⟨running, hasked⟩, -⟩ := asked_of_runs_pid hpid
    refine ⟨log ++ (entries .coordinator query ++ []), ?_,
      hlogged.append (.query hcoordinator hasked (.refl _))⟩
    simp

/-- Asking for a build name is asking for the time. -/
theorem clock_of_runs_currentBuildName {buildName : String}
    (h : Action.Runs currentBuildName trace buildName) :
    ∃ now, trace = [⟨.clock, now⟩] ∧ buildName = now.buildName := by
  obtain ⟨now, last, rfl, hend⟩ := Action.runs_request_bind_iff.mp h
  obtain ⟨rfl, rfl⟩ := Action.runs_pure_iff.mp hend
  exact ⟨now, rfl, rfl⟩

/-- A step of the restart pass is a stop or nothing. -/
theorem turn_of_runs_stopStep {flags : List Bool} {i : Nat} {d d' : Daemon} {turn : List Exchange}
    {outcome : Except Fault Unit} (h : Action.Runs (stopStep flags i d) turn (outcome, d')) :
    Turn d turn d' := by
  unfold stopStep at h
  split at h
  · exact .stopped h
  · obtain ⟨rfl, -, rfl⟩ := Action.runs_pure_pair_iff.mp h
    exact .passed

/-- The restart pass is a stretch of a run. -/
theorem logged_of_runs_applyRestartPolicy {flags : List Bool} {outcome : Except Fault Unit}
    (h : Action.Runs (s.applyRestartPolicy flags) trace (outcome, s')) :
    ∃ log, Log.trace log = trace ∧ Logged Turn s log s' := by
  obtain ⟨log, answers, ds', rfl, htour, rfl, rfl⟩ := tour_of_runs_applyRestartPolicy h
  exact ⟨log, rfl, htour.logged (fun _ _ _ _ _ => turn_of_runs_stopStep) [] rfl s rfl⟩

/-- So is a renewal, also one that fails. -/
theorem logged_of_runs_renew {outcome : Except Fault Unit}
    (h : Action.Runs s.renew trace (outcome, s')) :
    ∃ log, Log.trace log = trace ∧ Logged Turn s log s' := by
  obtain ⟨named, rest, buildName, rfl, hname, hrest⟩ := Action.runs_bind_iff.mp h
  obtain ⟨now, rfl, rfl⟩ := clock_of_runs_currentBuildName hname
  have hwait : ∀ {log}, Logged Turn s log s' →
      Logged Turn s (entries .loop [⟨.clock, now⟩] ++ log) s' := fun hlogged => .wait rfl hlogged
  rcases runs_andThen hrest with ⟨fault, hrebuild, rfl⟩ |
    ⟨rebuild, restart, flags, s₁, rfl, hrebuild, hrestart⟩
  · obtain ⟨log, rfl, hlogged⟩ :=
      logged_of_runs_eachDaemon hrebuild fun _ _ _ _ hruns => Turn.rebuilt hruns
    exact ⟨_, by simp, hwait hlogged⟩
  · obtain ⟨log, rfl, hlogged⟩ :=
      logged_of_runs_eachDaemon hrebuild fun _ _ _ _ hruns => Turn.rebuilt hruns
    obtain ⟨log', rfl, hlogged'⟩ := logged_of_runs_applyRestartPolicy hrestart
    exact ⟨_, by simp, hwait (hlogged.append hlogged')⟩

/-! ## Whole runs -/

/-- A run from some point to its end: it is broken off by a fault, or it ends with a shutdown. -/
inductive Ended (s : Supervisor) : Log → Log → Except Fault Unit → Supervisor → Prop
  | broken {front : Log} {fault : Fault} {s' : Supervisor} :
    Logged Turn s front s' → Ended s front [] (.error fault) s'
  | shutDown {front closing : Log} {answers : Except Fault (List Unit)} {s₁ : Supervisor}
      {ds' : List Daemon} :
    Logged Turn s front s₁ →
    Tour (fun _ d => d.shutdown) 0 s₁.daemons closing answers ds' →
    Ended s front closing (answers.map fun _ => ()) (s₁.withDaemons ds')

variable {front closing : Log} {outcome : Except Fault Unit}

theorem Ended.prepend (h : Logged Turn s log s₁) (hended : Ended s₁ front closing outcome s') :
    Ended s (log ++ front) closing outcome s' := by
  cases hended with
  | broken hlogged => exact .broken (h.append hlogged)
  | shutDown hlogged htour => exact .shutDown (h.append hlogged) htour

/-- A shutdown is the end of a run. -/
theorem ended_of_runs_shutdown (h : Action.Runs s.shutdown trace (outcome, s')) :
    ∃ closing, Log.trace closing = trace ∧ Ended s [] closing outcome s' := by
  obtain ⟨closing, answers, ds', rfl, htour, rfl, rfl⟩ := tour_of_runs_eachDaemonEffect h
  exact ⟨closing, rfl, .shutDown (.refl s) htour⟩

/-- If what follows a cycle goes on to the end of the run, so does the cycle. -/
theorem ended_of_runs_cycleThen {next : Supervisor → Action (Except Fault Unit × Supervisor)}
    (hnext : ∀ s trace, Action.Runs (next s) trace (outcome, s') →
      ∃ front closing, Log.trace (front ++ closing) = trace ∧ Ended s front closing outcome s')
    (h : Action.Runs (cycleThen next s) trace (outcome, s')) :
    ∃ front closing, Log.trace (front ++ closing) = trace ∧ Ended s front closing outcome s' := by
  rcases runs_andThen h with ⟨fault, hcall, rfl⟩ | ⟨call, rest, _, s₁, rfl, hcall, hrest⟩
  · obtain ⟨log, rfl, hlogged⟩ :=
      logged_of_runs_eachDaemonEffect hcall fun _ _ _ _ hruns => Turn.started hruns
    exact ⟨log, [], by rw [List.append_nil], .broken hlogged⟩
  obtain ⟨log, rfl, hlogged⟩ :=
    logged_of_runs_eachDaemonEffect hcall fun _ _ _ _ hruns => Turn.started hruns
  obtain ⟨report, rest, s₂, rfl, hreport, hpause⟩ := Action.runs_bind_iff.mp hrest
  obtain ⟨log', rfl, hlogged'⟩ := logged_of_runs_report hreport
  obtain ⟨wake, rest, rfl, hwake⟩ := Action.runs_request_bind_iff.mp hpause
  have hpaused := hlogged.append (hlogged'.append
    (.wait (e := ⟨.pause s₂.pollInterval, wake⟩) rfl (.refl s₂)))
  cases wake with
  | interrupted =>
    obtain ⟨closing, rfl, hended⟩ := ended_of_runs_shutdown hwake
    exact ⟨_, closing, by simp, hended.prepend hpaused⟩
  | elapsed =>
    rcases runs_andThen hwake with ⟨fault, hrenew, rfl⟩ |
      ⟨renewal, rest, _, s₃, rfl, hrenew, hlater⟩
    · obtain ⟨log'', rfl, hlogged''⟩ := logged_of_runs_renew hrenew
      exact ⟨_, [], by simp, .broken (hpaused.append hlogged'')⟩
    · obtain ⟨log'', rfl, hlogged''⟩ := logged_of_runs_renew hrenew
      obtain ⟨front, closing, rfl, hended⟩ := hnext s₃ rest hlater
      exact ⟨_, closing, by simp, hended.prepend (hpaused.append hlogged'')⟩

/-- Cycles go on to the end of the run. -/
theorem ended_of_runs_cycles {remaining : Nat}
    (h : Action.Runs (cycles remaining s) trace (outcome, s')) :
    ∃ front closing, Log.trace (front ++ closing) = trace ∧ Ended s front closing outcome s' := by
  induction remaining generalizing s trace with
  | zero =>
    rw [cycles_zero_eq] at h
    refine ended_of_runs_cycleThen (fun s trace hshutdown => ?_) h
    obtain ⟨closing, htrace, hended⟩ := ended_of_runs_shutdown hshutdown
    exact ⟨[], closing, htrace, hended⟩
  | succ remaining ih =>
    rw [cycles_succ_eq] at h
    exact ended_of_runs_cycleThen (fun _ _ hcycles => ih hcycles) h

/-- The whole of a run: the start of the coordinator, which may fail, and what follows it. -/
inductive Logged.Whole (s : Supervisor) :
    Log → Log → Log → Except Fault Unit → Supervisor → Prop
  | refused {opening : List Exchange} {fault : Fault} {s' : Supervisor} :
    Action.Runs s.startCoordinator opening (.error fault, s') →
    Logged.Whole s (entries .coordinator opening) [] [] (.error fault) s'
  | underWay {opening : List Exchange} {front closing : Log} {outcome : Except Fault Unit}
      {s₁ s' : Supervisor} :
    Action.Runs s.startCoordinator opening (.ok (), s₁) → Ended s₁ front closing outcome s' →
    Logged.Whole s (entries .coordinator opening) front closing outcome s'

/-- Every run is such a whole, however it ends. -/
theorem whole_of_runs_run {limit : Option Nat} (h : Action.Runs (s.run limit) trace (outcome, s')) :
    ∃ opening front closing, Log.trace (opening ++ front ++ closing) = trace ∧
      Logged.Whole s opening front closing outcome s' := by
  rcases runs_andThen h with ⟨fault, hstart, rfl⟩ | ⟨opening, rest, _, s₁, rfl, hstart, hrest⟩
  · exact ⟨_, [], [], by simp, .refused hstart⟩
  obtain ⟨named, rest, buildName, rfl, hname, hbuilding⟩ := Action.runs_bind_iff.mp hrest
  obtain ⟨now, rfl, rfl⟩ := clock_of_runs_currentBuildName hname
  have hnamed : Logged Turn s₁ (entries .loop [⟨.clock, now⟩] ++ []) s₁ := .wait rfl (.refl s₁)
  rcases runs_andThen hbuilding with ⟨fault, hbuild, rfl⟩ |
    ⟨build, rest, _, s₂, rfl, hbuild, hcycles⟩
  · obtain ⟨log, rfl, hlogged⟩ :=
      logged_of_runs_eachDaemonEffect hbuild fun _ _ _ _ hruns => Turn.refreshed hruns
    exact ⟨_, _, [], by simp, .underWay hstart (.broken (hnamed.append hlogged))⟩
  · obtain ⟨log, rfl, hlogged⟩ :=
      logged_of_runs_eachDaemonEffect hbuild fun _ _ _ _ hruns => Turn.refreshed hruns
    obtain ⟨front, closing, rfl, hended⟩ := ended_of_runs_cycles hcycles
    exact ⟨_, _, closing, by simp, .underWay hstart (hended.prepend (hnamed.append hlogged))⟩

end Supervisor

end DaemonKeeper
