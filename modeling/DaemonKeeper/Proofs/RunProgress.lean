import DaemonKeeper.Proofs.DaemonCycles
import DaemonKeeper.Proofs.RunEnd
set_option autoImplicit false

/-!
# How far a run has come (SPEC §3.5)

A run that goes on has taken every daemon through the phases of as many cycles, and its log tells
what each party has exchanged on the way: the exchanges of a daemon are what it has been through,
and those of the loop are a reading of the clock, and then a pause and a reading for each cycle.
-/

namespace DaemonKeeper.Supervisor

open Log ManagedProcess

/-- Something that is true of each daemon, seen from its beginning and all of its exchanges. -/
structure Everyone (P : Nat → Daemon → List Exchange → Daemon → Prop) (s₁ : Supervisor) (log : Log)
    (ds : List Daemon) : Prop where
  length_eq : ds.length = s₁.daemons.length
  each : ∀ (i : Nat) d₀, s₁.daemons[i]? = some d₀ → ∃ d, ds[i]? = some d ∧
    P i d₀ (log.own (.daemon i)) d

/-- A run that has come so far: every party has dealt with its own child, the loop has done this,
and every daemon is where it should be. -/
structure SoFar (P : Nat → Daemon → List Exchange → Daemon → Prop) (s₁ : Supervisor) (log : Log)
    (loop : List Exchange) (s : Supervisor) : Prop where
  recorded : Recorded s₁ log s
  asksOnly : AsksOnly log
  loop_eq : log.own .loop = loop
  interval_eq : s.pollInterval = s₁.pollInterval
  parties : ∀ entry ∈ log, ∀ i, entry.1 = .daemon i → i < s₁.daemons.length
  everyone : Everyone P s₁ log s.daemons

/-- What the loop does in a cycle that is not interrupted. -/
def round (interval : Duration) (now : Calendar.LocalTime) : List Exchange :=
  [⟨.pause interval, .elapsed⟩, ⟨.clock, now⟩]

variable {s₀ s₁ s s' : Supervisor} {polls : Nat} {loop pass : List Exchange} {log : Log}
variable {P Q : Nat → Daemon → List Exchange → Daemon → Prop} {buildName : String}

namespace SoFar

/-- Something that does not concern the daemons. -/
theorem append {exchanged : Log} {done : List Exchange} (h : SoFar P s₁ log loop s)
    (hrecorded : Recorded s exchanged s') (hasksOnly : AsksOnly exchanged)
    (hdone : exchanged.own .loop = done) (hparties : ∀ entry ∈ exchanged, ∀ i, entry.1 ≠ .daemon i)
    (hdaemons : s'.daemons = s.daemons) (hinterval : s'.pollInterval = s.pollInterval) :
    SoFar P s₁ (log ++ exchanged) (loop ++ done) s' where
  recorded := h.recorded.append hrecorded
  asksOnly := h.asksOnly.append hasksOnly
  loop_eq := by rw [own_append, h.loop_eq, hdone]
  interval_eq := hinterval.trans h.interval_eq
  parties := List.forall_mem_append.mpr ⟨h.parties, fun entry hentry i hi =>
    absurd hi (hparties entry hentry i)⟩
  everyone := by
    have hnone : ∀ i, exchanged.own (.daemon i) = [] := by
      intro i
      refine List.filterMap_eq_nil_iff.mpr fun entry hentry => ?_
      exact if_neg (hparties entry hentry i)
    rw [hdaemons]
    refine ⟨h.everyone.length_eq, fun i d₀ hd₀ => ?_⟩
    rw [own_append, hnone, List.append_nil]
    exact h.everyone.each i d₀ hd₀

/-- The loop asks for something. -/
theorem wait (h : SoFar P s₁ log loop s) {e : Exchange} (he : e.request.aboutProcess = false) :
    SoFar P s₁ (log ++ entries .loop [e]) (loop ++ [e]) s := by
  refine h.append (.of_loop s he) ?_ (own_entries_self _ _) ?_ rfl rfl
  · exact ⟨by simpa using he, nofun⟩
  · simp [entries]

/-- The coordinator's handle asks for the status of its child. -/
theorem query (h : SoFar P s₁ log loop s) {c : Coordinator} {query : List Exchange}
    {running : Bool} {p : ManagedProcess} (hc : s.coordinator = some c)
    (hasked : Asked c.process query running p) :
    SoFar P s₁ (log ++ entries .coordinator query) loop (s.withCoordinator c p) := by
  have hnone : Log.own .loop (entries .coordinator query) = [] :=
    own_entries_of_ne (by decide) query
  have hsoFar := h.append (.of_coordinator hc hasked.keepsToChild) ?_ hnone ?_ rfl rfl
  · rwa [List.append_nil] at hsoFar
  · refine ⟨by rw [hnone]; nofun, ?_⟩
    rw [own_entries_self]
    exact hasked.request_eq
  · intro entry hentry i
    obtain ⟨e, -, rfl⟩ := List.mem_map.mp hentry
    nofun

/-- Going on where more is asked of the daemons than is needed. -/
theorem mono (h : SoFar P s₁ log loop s) (hPQ : ∀ i d₀ own d, P i d₀ own d → Q i d₀ own d) :
    SoFar Q s₁ log loop s where
  recorded := h.recorded
  asksOnly := h.asksOnly
  loop_eq := h.loop_eq
  interval_eq := h.interval_eq
  parties := h.parties
  everyone := ⟨h.everyone.length_eq, fun i d₀ hd₀ =>
    let ⟨d, hd, hplace⟩ := h.everyone.each i d₀ hd₀
    ⟨d, hd, hPQ i d₀ _ d hplace⟩⟩

/-- A tour whose turns all succeed takes every daemon to where it should be next. -/
theorem tour {α : Type} {step : Nat → Daemon → Action (Except Fault α × Daemon)}
    {Q : α → Nat → Daemon → List Exchange → Daemon → Prop} {piece : Log} {as : List α}
    {ds' : List Daemon} (h : SoFar P s₁ log loop s)
    (htour : Tour step 0 s.daemons piece (.ok as) ds')
    (hkeeps : ∀ i d turn answer d', Action.Runs (step i d) turn (answer, d') →
      KeepsToChild d.process turn d'.process)
    (hstep : ∀ i d₀ own d turn a d', P i d₀ own d → as[i]? = some a →
      Action.Runs (step i d) turn (.ok a, d') → Q a i d₀ (own ++ turn) d') :
    SoFar (fun i d₀ own d => ∃ a, as[i]? = some a ∧ Q a i d₀ own d) s₁ (log ++ piece) loop
      (s.withDaemons ds') := by
  have hlogged : Logged (fun d turn d' => KeepsToChild d.process turn d'.process) s piece
      (s.withDaemons ds') := htour.logged hkeeps [] rfl s rfl
  have hsucceeds := htour.succeeds
  refine ⟨h.recorded.append (hlogged.recorded fun _ _ _ hturn => hturn),
    h.asksOnly.append hlogged.asksOnly, ?_, h.interval_eq, ?_,
    ⟨hsucceeds.length_daemons.trans h.everyone.length_eq, fun i d₀ hd₀ => ?_⟩⟩
  · rw [own_append, htour.own_loop_eq_nil, List.append_nil, h.loop_eq]
  · refine List.forall_mem_append.mpr ⟨h.parties, fun entry hentry i hi => ?_⟩
    have hbound := htour.party_lt entry hentry i hi
    rwa [Nat.zero_add, h.everyone.length_eq] at hbound
  · obtain ⟨d, hd, hplace⟩ := h.everyone.each i d₀ hd₀
    obtain ⟨a, d', ha, hd', hruns⟩ := hsucceeds.turn i d hd
    rw [Nat.zero_add] at hruns
    rw [own_append]
    exact ⟨d', hd', a, ha, hstep i d₀ _ d _ a d' hplace ha hruns⟩

/-- The same for a pass over the daemons. -/
theorem eachDaemon {α : Type} {step : Daemon → Action (Except Fault α × Daemon)}
    {Q : α → Nat → Daemon → List Exchange → Daemon → Prop} {as : List α}
    (h : SoFar P s₁ log loop s) (hruns : Action.Runs (s.eachDaemon step) pass (.ok as, s'))
    (hkeeps : ∀ d turn answer d', Action.Runs (step d) turn (answer, d') →
      KeepsToChild d.process turn d'.process)
    (hstep : ∀ i d₀ own d turn a d', P i d₀ own d →
      Action.Runs (step d) turn (.ok a, d') → Q a i d₀ (own ++ turn) d') :
    ∃ piece, Log.trace piece = pass ∧
      SoFar (fun i d₀ own d => ∃ a, as[i]? = some a ∧ Q a i d₀ own d) s₁ (log ++ piece) loop
        s' := by
  obtain ⟨piece, ds', rfl, htour, rfl⟩ := tour_of_runs_eachDaemon hruns
  exact ⟨piece, rfl, h.tour htour (fun _ => hkeeps) fun i d₀ own d turn a d' hplace _ =>
    hstep i d₀ own d turn a d' hplace⟩

/-- The same where the answers do not matter. -/
theorem eachDaemonEffect {α : Type} {step : Daemon → Action (Except Fault α × Daemon)}
    (h : SoFar P s₁ log loop s) (hruns : Action.Runs (s.eachDaemonEffect step) pass (.ok (), s'))
    (hkeeps : ∀ d turn answer d', Action.Runs (step d) turn (answer, d') →
      KeepsToChild d.process turn d'.process)
    (hstep : ∀ i d₀ own d turn a d', P i d₀ own d →
      Action.Runs (step d) turn (.ok a, d') → Q i d₀ (own ++ turn) d') :
    ∃ piece, Log.trace piece = pass ∧ SoFar Q s₁ (log ++ piece) loop s' := by
  obtain ⟨first, last, ⟨answers, s₂⟩, rfl, hpass, hlast⟩ := Action.runs_bind_iff.mp hruns
  obtain ⟨rfl, houtcome, rfl⟩ := Action.runs_pure_pair_iff.mp hlast
  obtain ⟨as, rfl⟩ := exists_eq_ok_of_map houtcome
  rw [List.append_nil]
  obtain ⟨piece, rfl, hsoFar⟩ := h.eachDaemon (Q := fun _ => Q) hpass hkeeps hstep
  exact ⟨piece, rfl, hsoFar.mono fun _ _ _ _ ⟨_, _, hplace⟩ => hplace⟩

end SoFar

/-! ## Where the daemons are -/

/-- The daemon has not been dealt with. -/
def Untouched (_ : Nat) (d₀ : Daemon) (own : List Exchange) (d : Daemon) : Prop :=
  own = [] ∧ d = d₀

/-- The daemon has been polled so many times, and has come to this phase. -/
def At (polls : Nat) (phase : Phase) (_ : Nat) (d₀ : Daemon) (own : List Exchange) (d : Daemon) :
    Prop :=
  ∃ answers builds, Served d₀ phase answers builds own d ∧ answers.length = polls

/-- The daemon has been polled so many times, and holds what is running after it was called up. -/
theorem At.called {i : Nat} {d₀ d d' : Daemon} {own turn : List Exchange}
    (h : At polls .resting i d₀ own d) (hruns : Action.Runs (startDaemon d) turn (.ok (), d')) :
    At polls .called i d₀ (own ++ turn) d' := by
  obtain ⟨answers, builds, hserved, hpolls⟩ := h
  obtain ⟨p, hrevived, rfl⟩ := revived_of_runs_startDaemon hruns
  exact ⟨answers, builds, hserved.called hrevived, hpolls⟩

namespace SoFar

/-! ## The passes of a cycle -/

/-- Every daemon is built at first. -/
theorem built (h : SoFar Untouched s₁ log loop s)
    (hruns : Action.Runs (s.buildAll buildName) pass (.ok (), s')) :
    ∃ piece, Log.trace piece = pass ∧ SoFar (At 0 .resting) s₁ (log ++ piece) loop s' := by
  refine h.eachDaemonEffect hruns
    (fun _ _ _ _ hturn => (Turn.refreshed hturn).attended.keepsToChild) ?_
  rintro i d₀ _ d turn _ d' ⟨rfl, rfl⟩ hturn
  obtain ⟨update, recipe, path, rfl, hrefreshed, rfl⟩ := Daemon.refreshed_of_runs_refresh hturn
  exact ⟨[], [update ++ recipe], .built hrefreshed, rfl⟩

/-- Every daemon that does not run is started. -/
theorem called (h : SoFar (At polls .resting) s₁ log loop s)
    (hruns : Action.Runs s.ensureRunning pass (.ok (), s')) :
    ∃ piece, Log.trace piece = pass ∧ SoFar (At polls .called) s₁ (log ++ piece) loop s' :=
  h.eachDaemonEffect hruns (fun _ _ _ _ hturn => (Turn.started hturn).attended.keepsToChild)
    fun _ _ _ _ _ _ _ hplace => hplace.called

/-- Every daemon is reported, and then perhaps the coordinator. -/
theorem reported (h : SoFar (At polls .called) s₁ log loop s)
    (hruns : Action.Runs s.report pass s') :
    ∃ piece, Log.trace piece = pass ∧ SoFar (At polls .reported) s₁ (log ++ piece) loop s' := by
  obtain ⟨first, last, ⟨told, s₂⟩, rfl, hpass, hrest⟩ := Action.runs_bind_iff.mp hruns
  have htold : ∃ pids, told = .ok pids := by
    obtain ⟨_, _, -, htour, -⟩ := tour_of_runs_eachDaemon hpass
    exact htour.eq_ok fun _ _ _ _ _ => exists_ok_of_runs_reportDaemon
  obtain ⟨pids, rfl⟩ := htold
  obtain ⟨piece, rfl, hall⟩ := h.eachDaemon (Q := fun _ => At polls .reported) hpass
    (fun _ _ _ _ hturn => (Turn.reported hturn).attended.keepsToChild) (by
      rintro i d₀ own d turn pid d' ⟨answers, builds, hserved, hpolls⟩ hturn
      obtain ⟨running, p, hasked, rfl⟩ := asked_of_runs_reportDaemon hturn
      exact ⟨answers, builds, hserved.reported hasked, hpolls⟩)
  have hsoFar : SoFar (At polls .reported) s₁ (log ++ piece) loop s₂ :=
    hall.mono fun _ _ _ _ ⟨_, _, hplace⟩ => hplace
  cases hcoordinator : s₂.coordinator with
  | none =>
    simp only [hcoordinator] at hrest
    obtain ⟨rfl, rfl⟩ := Action.runs_pure_iff.mp hrest
    exact ⟨piece, (List.append_nil _).symm, hsoFar⟩
  | some c =>
    simp only [hcoordinator] at hrest
    obtain ⟨query, end', ⟨pid, p⟩, rfl, hpid, hlast⟩ := Action.runs_bind_iff.mp hrest
    obtain ⟨rfl, rfl⟩ := Action.runs_pure_iff.mp hlast
    obtain ⟨⟨running, hasked⟩, -⟩ := asked_of_runs_pid hpid
    refine ⟨piece ++ entries .coordinator query, ?_, ?_⟩
    · rw [trace_append, trace_entries, List.append_nil]
    · rw [← List.append_assoc]
      exact hsoFar.query hcoordinator hasked

/-- Every daemon is polled, and rebuilt if its sources have changed. -/
theorem rebuilt {flags : List Bool} (h : SoFar (At polls .reported) s₁ log loop s)
    (hruns : Action.Runs (s.rebuildChanged buildName) pass (.ok flags, s')) :
    ∃ piece, Log.trace piece = pass ∧ SoFar (fun i d₀ own d => ∃ flag, flags[i]? = some flag ∧
      At (polls + 1) (.polled flag) i d₀ own d) s₁ (log ++ piece) loop s' := by
  refine h.eachDaemon (Q := fun flag => At (polls + 1) (.polled flag)) hruns
    (fun _ _ _ _ hturn => (Turn.rebuilt hturn).attended.keepsToChild) ?_
  rintro i d₀ own d turn flag d' ⟨answers, builds, hserved, hpolls⟩ hturn
  cases renewed_of_runs_rebuildDaemon hturn with
  | unchanged hpoll => exact ⟨_, _, hserved.unchanged hpoll, by simp [hpolls]⟩
  | rebuilt hpoll hrefreshed => exact ⟨_, _, hserved.rebuilt hpoll hrefreshed, by simp [hpolls]⟩

/-- The daemons that the policies select are stopped. -/
theorem rested {flags : List Bool}
    (h : SoFar (fun i d₀ own d => ∃ flag, flags[i]? = some flag ∧
      At polls (.polled flag) i d₀ own d) s₁ log loop s)
    (hruns : Action.Runs (s.applyRestartPolicy flags) pass (.ok (), s')) :
    ∃ piece, Log.trace piece = pass ∧ SoFar (At polls .resting) s₁ (log ++ piece) loop s' := by
  obtain ⟨piece, answers, ds', rfl, htour, rfl, hok⟩ := tour_of_runs_applyRestartPolicy hruns
  obtain ⟨as, rfl⟩ := exists_eq_ok_of_map hok
  have htoured := h.tour (Q := fun _ => At polls .resting) htour
    (fun _ _ _ _ _ hturn => (turn_of_runs_stopStep hturn).attended.keepsToChild) (by
      rintro i d₀ own d turn _ d' ⟨flag, hflag, answers, builds, hserved, hpolls⟩ - hturn
      exact ⟨answers, builds, hserved.rested (stopTurn_of_runs_stopStep hflag hturn), hpolls⟩)
  exact ⟨piece, rfl, htoured.mono fun _ _ _ _ ⟨_, _, hplace⟩ => hplace⟩

/-- A renewal polls every daemon once and lets it rest. -/
theorem renewed (h : SoFar (At polls .reported) s₁ log loop s)
    (hruns : Action.Runs s.renew pass (.ok (), s')) :
    ∃ piece now, Log.trace piece = pass ∧
      SoFar (At (polls + 1) .resting) s₁ (log ++ piece) (loop ++ [⟨.clock, now⟩]) s' := by
  obtain ⟨named, rest, buildName, rfl, hname, hrest⟩ := Action.runs_bind_iff.mp hruns
  obtain ⟨now, rfl, rfl⟩ := clock_of_runs_currentBuildName hname
  obtain ⟨rebuild, restart, flags, s₂, rfl, hrebuild, hrestart⟩ := runs_andThen_ok hrest
  obtain ⟨first, rfl, hrebuilt⟩ := (h.wait (e := ⟨.clock, now⟩) rfl).rebuilt hrebuild
  obtain ⟨second, rfl, hrested⟩ := hrebuilt.rested hrestart
  refine ⟨entries .loop [⟨.clock, now⟩] ++ (first ++ second), now, by simp, ?_⟩
  rwa [← List.append_assoc, ← List.append_assoc]

/-- A cycle after which the run goes on takes one round of the loop, and polls every daemon once. -/
theorem cycled (h : SoFar (At polls .resting) s₁ log loop s)
    (hruns : Action.Runs s.cycle pass (.underWay, s')) :
    ∃ piece now, Log.trace piece = pass ∧ SoFar (At (polls + 1) .resting) s₁ (log ++ piece)
      (loop ++ round s₁.pollInterval now) s' := by
  obtain ⟨call, rest, ⟨outcome, s₂⟩, rfl, hcall, hrest⟩ := Action.runs_bind_iff.mp hruns
  cases outcome with
  | error fault =>
    obtain ⟨-, hover, -⟩ := Action.runs_pure_pair_iff.mp hrest
    cases hover
  | ok =>
    obtain ⟨report, rest, s₃, rfl, hreport, hpause⟩ := Action.runs_bind_iff.mp hrest
    obtain ⟨wake, rest, rfl, hwake⟩ := Action.runs_request_bind_iff.mp hpause
    cases wake with
    | interrupted =>
      obtain ⟨_, _, ⟨answer, s₄⟩, -, -, hend⟩ := Action.runs_bind_iff.mp hwake
      obtain ⟨-, hover, -⟩ := Action.runs_pure_pair_iff.mp hend
      cases hover
    | elapsed =>
      obtain ⟨renewal, last, ⟨answer, s₄⟩, rfl, hrenew, hend⟩ := Action.runs_bind_iff.mp hwake
      obtain ⟨rfl, hanswer, rfl⟩ := Action.runs_pure_pair_iff.mp hend
      cases answer with
      | error fault => cases hanswer
      | ok =>
        obtain ⟨first, rfl, hcalled⟩ := h.called hcall
        obtain ⟨second, rfl, hreported⟩ := hcalled.reported hreport
        have hpaused := hreported.wait (e := ⟨.pause s₃.pollInterval, .elapsed⟩) rfl
        obtain ⟨third, now, rfl, hrenewed⟩ := hpaused.renewed hrenew
        have hinterval : s₃.pollInterval = s₁.pollInterval := hreported.interval_eq
        rw [hinterval] at hrenewed
        refine ⟨first ++ (second ++ (entries .loop [⟨.pause s₁.pollInterval, .elapsed⟩] ++ third)),
          now, by simp [hinterval], ?_⟩
        simpa [round] using hrenewed

end SoFar

/-- Whenever a run comes to a cycle, every daemon has been polled once in each cycle before it. -/
theorem soFar_of_runs_approach {k : Nat} (h : Action.Runs (s₀.approach k) pass (.underWay, s)) :
    ∃ (start : List Exchange) (s₁ : Supervisor) (log : Log) (first : Calendar.LocalTime)
      (times : List Calendar.LocalTime),
      Action.Runs s₀.startCoordinator start (.ok (), s₁) ∧ pass = start ++ Log.trace log ∧
      times.length = k ∧ SoFar (At k .resting) s₁ log
        (⟨.clock, first⟩ :: times.flatMap (round s₁.pollInterval)) s := by
  induction k generalizing pass s with
  | zero =>
    obtain ⟨boot, last, ⟨outcome, s₂⟩, rfl, hboot, hend⟩ := Action.runs_bind_iff.mp h
    obtain ⟨rfl, houtcome, rfl⟩ := Action.runs_pure_pair_iff.mp hend
    cases outcome with
    | error fault => cases houtcome
    | ok =>
      obtain ⟨start, rest, _, s₁, rfl, hstart, hrest⟩ := runs_andThen_ok hboot
      obtain ⟨named, build, buildName, rfl, hname, hbuild⟩ := Action.runs_bind_iff.mp hrest
      obtain ⟨first, rfl, rfl⟩ := clock_of_runs_currentBuildName hname
      have hbegin : SoFar Untouched s₁ [] [] s₁ :=
        ⟨.refl s₁, .nil, rfl, rfl, nofun, rfl, fun i d₀ hd₀ => ⟨d₀, hd₀, rfl, rfl⟩⟩
      obtain ⟨piece, rfl, hbuilt⟩ := (hbegin.wait (e := ⟨.clock, first⟩) rfl).built hbuild
      exact ⟨start, s₁, _, first, [], hstart, by simp, rfl, hbuilt⟩
  | succ k ih =>
    obtain ⟨before, after, ⟨progress, s₂⟩, rfl, hbefore, hafter⟩ := Action.runs_bind_iff.mp h
    cases progress with
    | ended outcome =>
      obtain ⟨-, hover, -⟩ := Action.runs_pure_pair_iff.mp hafter
      cases hover
    | underWay =>
      obtain ⟨start, s₁, log, first, times, hstart, rfl, hlength, hsoFar⟩ := ih hbefore
      obtain ⟨piece, now, rfl, hcycled⟩ := hsoFar.cycled hafter
      refine ⟨start, s₁, log ++ piece, first, times ++ [now], hstart, by simp, by simp [hlength],
        ?_⟩
      simpa using hcycled

end DaemonKeeper.Supervisor
