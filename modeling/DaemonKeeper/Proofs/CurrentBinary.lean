import DaemonKeeper.Proofs.RunProgress
set_option autoImplicit false

/-!
# The binaries of running daemons (SPEC §3.5, §3.6)

A rebuild gives a daemon a new binary while its process still runs the old one.  The restart pass of
the same cycle stops every daemon that was rebuilt, whatever its policy (SPEC §3.6), so by the time
the next cycle starts what is not running, every child that is held was started from the binary its
daemon knows.  Starting keeps it so: it leaves alone what runs and uses the known binary for the
rest.
-/

namespace DaemonKeeper.Supervisor

open Log ManagedProcess

variable {s₀ s s' : Supervisor} {before : List Exchange}

/-! ## What was built last -/

/-- The last of these builds of a daemon is a build of its sources that has left `path`. -/
def LastBuild (d₀ : Daemon) (builds : List (List Exchange)) (path : Path) : Prop :=
  ∃ buildName update recipe, builds.getLast? = some (update ++ recipe) ∧
    d₀.Refreshed buildName update recipe path

section

variable {d₀ d : Daemon} {phase : Phase} {polls : List (List Exchange × Bool)}
variable {builds : List (List Exchange)} {own : List Exchange}

/-- A daemon knows the binary that its last build has left. -/
theorem Served.lastBuild (h : Served d₀ phase polls builds own d) :
    ∃ path, d.executable = some path ∧ LastBuild d₀ builds path := by
  induction h with
  | built hrefreshed => exact ⟨_, rfl, _, _, _, rfl, hrefreshed⟩
  | called _ _ ih => exact ih
  | reported _ _ ih => exact ih
  | unchanged _ _ ih => exact ih
  | rebuilt hserved _ hrefreshed _ =>
    -- What is built does not depend on the process or on the binary that was known before.
    rw [hserved.same.1] at hrefreshed
    exact ⟨_, rfl, _, _, _, List.getLast?_concat, hrefreshed.updated, hrefreshed.built⟩
  | rested _ hturn ih =>
    cases hturn with
    | kept _ => exact ih
    | stopped _ _ => exact ih

/-- The child that is held was started last and from the known binary, except right after a
rebuild. -/
theorem Served.settled (h : Served d₀ phase polls builds own d) (hfresh : d₀.process.child = none)
    (hphase : phase ≠ .polled true) : Settled own d := by
  induction h with
  | built _ => exact settled_of_child_eq_none hfresh
  | called _ hrevived ih => exact (ih nofun).revived hrevived
  | reported _ hasked ih => exact (ih nofun).asked hasked
  | unchanged _ hpoll ih =>
    refine (ih nofun).append fun e he => ?_
    exact Exchange.spawned?_eq_none_of_aboutProcess (processFree_of_poll hpoll e he)
  | rebuilt _ _ _ _ => exact absurd rfl hphase
  | @rested _ _ _ _ d _ changed _ hturn ih =>
    cases hturn with
    | kept hkept =>
      -- Both policies restart what was rebuilt, so this daemon was not.
      have hsame : changed ≠ true := by
        rintro rfl
        cases hpolicy : d.restart <;> rw [hpolicy] at hkept <;> cases hkept
      rw [List.append_nil]
      exact ih fun hpolled => hsame (Phase.polled.inj hpolled)
    | stopped _ hstopped => exact settled_of_child_eq_none hstopped.child_eq_none

end

/-! ## Who holds what lives -/

section

variable {log : Log} {history : List Event} {pid : Nat}

/-- If process ids are handed out afresh, every child that is alive has a holder, in whose exchanges
alone it is seen which binary the child runs. -/
theorem Recorded.holder_of_living (h : Recorded s₀ log s) (hnothing : s₀.holdings = fun _ => none)
    (hpids : FreshPids [] log.trace) (hhistory : exchanges history = log.trace)
    (htruthful : Truthful [] history) (hpid : pid ∈ living [] history) :
    ∃ party, s.holdings party = some pid ∧
      binaryOf pid log.trace = binaryOf pid (log.own party) := by
  have hheldOnce : HeldOnce s₀.holdings [] := by
    rw [hnothing]
    exact .nothing []
  have hlivingHeld := (LivingHeld.nothing s₀.holdings).after hheldOnce h.kept hpids hhistory
    htruthful
  obtain ⟨party, hparty⟩ := hlivingHeld.holder pid hpid
  refine ⟨party, ?_, binaryOf_own hheldOnce h.kept hpids hparty⟩
  rw [h.holds]
  exact hparty

/-- Even if they are not, a child that a daemon has started and that is alive is the one it holds. -/
theorem Recorded.child_eq_of_living {i : Nat} {d : Daemon} (h : Recorded s₀ log s)
    (hnothing : s₀.holdings = fun _ => none) (hd : s.daemons[i]? = some d)
    (hhistory : exchanges history = log.own (.daemon i)) (htruthful : Truthful [] history)
    (hpid : pid ∈ living [] history) : d.process.child = some pid := by
  have horderly := (h.kept (.daemon i)).orderly
  rw [hnothing, ← hhistory] at horderly
  have honlyHeld := onlyHeld_at_moment .nil horderly htruthful (List.prefix_refl history)
  have hchild : s.holdings (.daemon i) = d.process.child := by
    simp only [holdings, hd, Option.bind_some]
  rw [← hchild, h.holds, hnothing]
  unfold Holdings.after
  rw [← hhistory]
  exact honlyHeld.isHeld pid hpid

end

/-! ## The main result -/

/-- A daemon that has been through so many cycles and was then called up: these are all of its
exchanges, and in them its polls and builds; the binary that it knows is what the last build has
left; and the child that it holds was started last, from that binary. -/
structure UpToDate (d₀ : Daemon) (count : Nat) (own : List Exchange) (d : Daemon)
    (polls : List (List Exchange × Bool)) (builds : List (List Exchange)) (path : Path) :
    Prop where
  served : Served d₀ .called polls builds own d
  polled : polls.length = count
  built : builds.length = 1 + (polls.map Prod.snd).count true
  lastBuild : LastBuild d₀ builds path
  executable_eq : d.executable = some path
  started : ∀ pid, d.process.child = some pid → lastStart own = some (path, pid)

/-- A daemon that was called up is up to date. -/
theorem At.upToDate {k i : Nat} {d₀ d : Daemon} {own : List Exchange} (h : At k .called i d₀ own d)
    (hfresh : d₀.process.child = none) :
    ∃ polls builds path, UpToDate d₀ k own d polls builds path := by
  obtain ⟨polls, builds, hserved, hpolls⟩ := h
  obtain ⟨path, hpath, hbuild⟩ := hserved.lastBuild
  refine ⟨polls, builds, path, hserved, hpolls, hserved.length_builds, hbuild, hpath, ?_⟩
  intro pid hpid
  obtain ⟨known, hknown, hstart⟩ := hserved.settled hfresh nofun pid hpid
  obtain rfl : path = known := Option.some.inj (hpath.symm.trans hknown)
  exact hstart

/-- A run at the point where every daemon has been called up after so many cycles: its log, in which
the loop has done this. -/
structure CalledUp (s₀ : Supervisor) (count : Nat) (log : Log) (loop : List Exchange)
    (s' : Supervisor) : Prop where
  recorded : Recorded s₀ log s'
  loop_eq : log.own .loop = loop
  parties : ∀ entry ∈ log, ∀ i, entry.1 = .daemon i → i < s₀.daemons.length
  length_eq : s'.daemons.length = s₀.daemons.length
  each : ∀ (i : Nat) d₀, s₀.daemons[i]? = some d₀ → ∃ d polls builds path,
    s'.daemons[i]? = some d ∧ UpToDate d₀ count (log.own (.daemon i)) d polls builds path

/-- Where a run has come to a cycle and calls its daemons up, its log is that of all it has
exchanged before and that of the calls. -/
theorem calledUp_of_tour {cfg : Config} {cpus k : Nat} (hconfig : ofConfig cfg cpus = .ok s₀)
    (hbefore : Action.Runs (s₀.approach k) before (.underWay, s)) {piece : Log} {as : List Unit}
    {ds' : List Daemon} (htour : Tour (fun _ => startDaemon) 0 s.daemons piece (.ok as) ds') :
    ∃ (log : Log) (first : Calendar.LocalTime) (times : List Calendar.LocalTime),
      Log.trace log = before ∧ times.length = k ∧
      CalledUp s₀ k (log ++ piece) (⟨.clock, first⟩ :: times.flatMap (round cfg.pollInterval))
        (s.withDaemons ds') := by
  obtain ⟨start, s₁, log, first, times, hstart, rfl, hlength, hsoFar⟩ :=
    soFar_of_runs_approach hbefore
  have hkeeps : ∀ (_ : Nat) d turn answer d', Action.Runs (startDaemon d) turn (answer, d') →
      KeepsToChild d.process turn d'.process :=
    fun _ _ _ _ _ hturn => (Turn.started hturn).attended.keepsToChild
  have hcalled : SoFar (At k .called) s₁ (log ++ piece)
      (⟨.clock, first⟩ :: times.flatMap (round s₁.pollInterval)) (s.withDaemons ds') :=
    (hsoFar.tour htour hkeeps fun _ _ _ _ _ _ _ hplace _ hruns => hplace.called hruns).mono
      fun _ _ _ _ ⟨_, _, hplace⟩ => hplace
  have hfresh := fresh_of_ofConfig hconfig
  have hdaemons : s₁.daemons = s₀.daemons := daemons_of_runs_startCoordinator hstart
  -- The start of the coordinator is put in front of the log, and is no concern of the others.
  have hown : ∀ party, party ≠ .coordinator →
      (entries .coordinator start ++ log ++ piece).own party = (log ++ piece).own party := by
    intro party hparty
    rw [List.append_assoc, own_append, own_entries_of_ne (Ne.symm hparty), List.nil_append]
  refine ⟨entries .coordinator start ++ log, first, times, by rw [trace_append, trace_entries],
    hlength, ?_, ?_, ?_, ?_, ?_⟩
  · rw [List.append_assoc]
    exact (Recorded.of_startCoordinator hstart).append hcalled.recorded
  · rw [hown .loop nofun, hcalled.loop_eq, pollInterval_of_startCoordinator hconfig hstart]
  · rw [List.append_assoc, ← hdaemons]
    refine List.forall_mem_append.mpr ⟨fun entry hentry i hi => ?_, hcalled.parties⟩
    obtain ⟨e, -, rfl⟩ := List.mem_map.mp hentry
    cases hi
  · rw [← hdaemons]
    exact hcalled.everyone.length_eq
  · intro i d₀ hd₀
    rw [hown (.daemon i) nofun]
    rw [← hdaemons] at hd₀
    obtain ⟨d, hd, hplace⟩ := hcalled.everyone.each i d₀ hd₀
    rw [hdaemons] at hd₀
    obtain ⟨polls, builds, path, hcurrent⟩ :=
      hplace.upToDate (hfresh d₀ (List.mem_of_getElem? hd₀)).2
    exact ⟨d, polls, builds, path, hd, hcurrent⟩

/-- If process ids are handed out afresh, whatever lives then is held, and by a daemon only if it
was started from the binary that the daemon knows. -/
theorem CalledUp.holder_of_living {k pid : Nat} {log : Log} {loop : List Exchange}
    {history : List Event} (h : CalledUp s₀ k log loop s')
    (hnothing : s₀.holdings = fun _ => none) (hpids : FreshPids [] log.trace)
    (hhistory : exchanges history = log.trace) (htruthful : Truthful [] history)
    (hpid : pid ∈ living [] history) :
    (∃ c, s'.coordinator = some c ∧ c.process.child = some pid) ∨
    ∃ (i : Nat) (d : Daemon) (path : Path), s'.daemons[i]? = some d ∧
      d.process.child = some pid ∧ d.executable = some path ∧
      binaryOf pid log.trace = some path := by
  obtain ⟨party, hparty, hbinary⟩ :=
    h.recorded.holder_of_living hnothing hpids hhistory htruthful hpid
  cases party with
  | loop => cases hparty
  | coordinator => exact .inl (Option.bind_eq_some_iff.mp hparty)
  | daemon i =>
    obtain ⟨d, hd, hchild⟩ := Option.bind_eq_some_iff.mp hparty
    have hi : i < s₀.daemons.length := by
      rw [← h.length_eq]
      exact (List.getElem?_eq_some_iff.mp hd).1
    obtain ⟨d', polls, builds, path, hd', hcurrent⟩ := h.each i _ (List.getElem?_eq_getElem hi)
    obtain rfl : d = d' := Option.some.inj (hd.symm.trans hd')
    refine .inr ⟨i, d, path, hd, hchild, hcurrent.executable_eq, ?_⟩
    rw [hbinary]
    exact binaryOf_of_lastStart (hcurrent.started pid hchild)

/-- A daemon whose child was held is asked for it, and nothing more is exchanged for it unless the
child has ended. -/
theorem Tour.of_child {piece : Log} {as : List Unit} {ds ds' : List Daemon} {i pid : Nat}
    {d : Daemon} (htour : Tour (fun _ => startDaemon) 0 ds piece (.ok as) ds')
    (hd : ds[i]? = some d) (hchild : d.process.child = some pid) :
    (∃ reply, reply ≠ ChildStatus.exited ∧
      piece.own (.daemon i) = [⟨.status pid, reply⟩] ∧ ds'[i]? = some d) ∨
    ∃ rest, piece.own (.daemon i) = ⟨.status pid, .exited⟩ :: rest := by
  obtain ⟨a, d', -, hd', hruns⟩ := htour.succeeds.turn i d hd
  rw [Nat.zero_add] at hruns
  obtain ⟨p, hrevived, rfl⟩ := revived_of_runs_startDaemon hruns
  rcases hrevived.of_child hchild with ⟨reply, hreply, hturn, hsame⟩ | hended
  · rw [hsame] at hd'
    exact .inl ⟨reply, hreply, hturn, hd'⟩
  · exact .inr hended

/-- Whenever a run has just started what was not running, in any of its cycles and whatever the
machine has replied so far, there is a log of all that was exchanged before and one of this last
pass, in which every party has dealt with its own child only.  In both together

* every daemon has been built at first and after each poll that has found a change, it knows the
  binary of the last of these builds, the child it holds was started last among all of its exchanges
  and from that binary, and no other child of it is alive;
* if process ids are handed out afresh, every child that is alive at all is held by the
  coordinator's handle or by a daemon, and then it was started from the binary that the daemon
  knows; and
* a child that was held before the pass is either kept, with nothing but one query exchanged for its
  daemon, or was found to have ended by that query.

The run is what leads to that point, followed by what is left of it. -/
theorem running_binary_is_current {cfg : Config} {cpus : Nat}
    (hconfig : ofConfig cfg cpus = .ok s₀) {limit : Option Nat} {k : Nat}
    (hk : k ≤ furtherCycles limit) {call : List Exchange}
    (hbefore : Action.Runs (s₀.approach k) before (.underWay, s))
    (hcall : Action.Runs s.ensureRunning call (.ok (), s')) :
    s₀.run limit = s₀.approach k >>= resume (furtherCycles limit - k) ∧
    s'.daemons.length = s₀.daemons.length ∧
    (FreshPids [] (before ++ call) → ∀ history, exchanges history = before ++ call →
      Truthful [] history → ∀ pid ∈ living [] history,
        (∃ c, s'.coordinator = some c ∧ c.process.child = some pid) ∨
        ∃ (i : Nat) (d : Daemon) (path : Path), s'.daemons[i]? = some d ∧
          d.process.child = some pid ∧ d.executable = some path ∧
          binaryOf pid (before ++ call) = some path) ∧
    ∃ (log piece : Log) (first : Calendar.LocalTime) (times : List Calendar.LocalTime),
      Log.trace log = before ∧ Log.trace piece = call ∧ Kept s₀.holdings (log ++ piece) ∧
      times.length = k ∧
      (log ++ piece).own .loop = ⟨.clock, first⟩ :: times.flatMap (round cfg.pollInterval) ∧
      (∀ entry ∈ log ++ piece, ∀ i, entry.1 = .daemon i → i < s₀.daemons.length) ∧
      (∀ (i : Nat) d₀, s₀.daemons[i]? = some d₀ → ∃ d polls builds path,
        s'.daemons[i]? = some d ∧
        UpToDate d₀ k ((log ++ piece).own (.daemon i)) d polls builds path ∧
        ∀ history, exchanges history = (log ++ piece).own (.daemon i) → Truthful [] history →
          ∀ pid ∈ living [] history, d.process.child = some pid) ∧
      ∀ (i : Nat) d pid, s.daemons[i]? = some d → d.process.child = some pid →
        (∃ reply, reply ≠ ChildStatus.exited ∧
          piece.own (.daemon i) = [⟨.status pid, reply⟩] ∧ s'.daemons[i]? = some d) ∨
        ∃ rest, piece.own (.daemon i) = ⟨.status pid, .exited⟩ :: rest := by
  obtain ⟨piece, answers, ds', rfl, htour, rfl, hok⟩ := tour_of_runs_eachDaemonEffect hcall
  obtain ⟨as, rfl⟩ := exists_eq_ok_of_map hok
  obtain ⟨log, first, times, rfl, hlength, hcalled⟩ := calledUp_of_tour hconfig hbefore htour
  have hnothing : s₀.holdings = fun _ => none := holdings_of_ofConfig hconfig
  refine ⟨run_eq_approach hk, hcalled.length_eq, ?_, log, piece, first, times, rfl, rfl,
    hcalled.recorded.kept, hlength, hcalled.loop_eq, hcalled.parties, ?_,
    fun i d pid hd hchild => htour.of_child hd hchild⟩
  · intro hpids history hhistory htruthful pid hpid
    rw [← trace_append] at hpids hhistory ⊢
    exact hcalled.holder_of_living hnothing hpids hhistory htruthful hpid
  · intro i d₀ hd₀
    obtain ⟨d, polls, builds, path, hd, hcurrent⟩ := hcalled.each i d₀ hd₀
    exact ⟨d, polls, builds, path, hd, hcurrent, fun history hhistory htruthful pid hpid =>
      hcalled.recorded.child_eq_of_living hnothing hd hhistory htruthful hpid⟩

/-! ## A daemon whose upstream never rests -/

/-- What the second build leaves. -/
def soloBinary : Path := ⟨"./svc/build1970-01-01-00:01:00/svcd"⟩

/-- The daemon in its second cycle. -/
def soloRunning : Daemon :=
  { soloDaemon with
    executable := some soloBinary
    process := { soloDaemon.process with child := some 67 } }

/-- A machine that knows the time and the child that lives.  Its remote always has new commits, and
its children end when they are told to. -/
def soloMachine (q : Request) (now : Nat × Option Nat) : q.Reply × (Nat × Option Nat) :=
  match q with
  | .run _ command =>
    if command.arguments = ["branch"] then (.ok ⟨0, ["* master"], []⟩, now)
    else if command.arguments = ["rev-parse", "origin/master"] then (.ok ⟨0, ["new"], []⟩, now)
    else (.ok ⟨0, ["old"], []⟩, now)
  | .readFile _ => (.error .notFound, now)
  | .isDirectory _ => (true, now)
  | .isExecutable _ => (true, now)
  | .createDirectory _ => (.ok (), now)
  | .writeFile _ _ => (.ok (), now)
  | .spawn _ _ => (.ok (now.1 + 7), (now.1, some (now.1 + 7)))
  | .status pid => (if now.2 = some pid then .alive else .exited, now)
  | .signal _ _ => (.ok (), (now.1, none))
  | .kill _ => (.ok (), (now.1, none))
  | .sleep _ => ((), now)
  | .pause _ => (.elapsed, (now.1 + 60, now.2))
  | .clock => (.ofSeconds now.1, now)

/-- What the solo daemon exchanges up to its second cycle, and then when it is called up again. -/
def soloBefore : List Exchange := Action.traceWith soloMachine (solo.approach 1) (0, none)

/-- Its supervisor when it comes to the second cycle. -/
def soloAgain : Supervisor := (Action.runWith soloMachine (solo.approach 1) (0, none)).1.2

/-- What is exchanged when the daemon is called up again. -/
def soloCall : List Exchange := Action.traceWith soloMachine soloAgain.ensureRunning (60, none)

/-- In its second cycle the daemon runs what the first cycle has rebuilt, and nothing else lives. -/
theorem running_binary_is_current_solo :
    ofConfig soloConfig 1 = .ok solo ∧ 1 ≤ furtherCycles (some 3) ∧
    Action.Runs (solo.approach 1) soloBefore (.underWay, soloAgain) ∧
    FreshPids [] (soloBefore ++ soloCall) ∧ Truthful [] (withExits (soloBefore ++ soloCall)) ∧
    living [] (withExits (soloBefore ++ soloCall)) = [67] ∧
    ∃ s', Action.Runs soloAgain.ensureRunning soloCall (.ok (), s') ∧ s'.daemons = [soloRunning] ∧
      binaryOf 67 (soloBefore ++ soloCall) = some soloBinary ∧
      ∃ log polls builds, Log.trace log = soloBefore ++ soloCall ∧
        UpToDate soloDaemon 1 (log.own (.daemon 0)) soloRunning polls builds soloBinary ∧
        lastStart (log.own (.daemon 0)) = some (soloBinary, 67) := by
  have hconfig : ofConfig soloConfig 1 = .ok solo := rfl
  have hlimit : 1 ≤ furtherCycles (some 3) := by decide
  have hbefore : Action.Runs (solo.approach 1) soloBefore (.underWay, soloAgain) :=
    Action.runs_traceWith soloMachine (solo.approach 1) (0, none)
  have hpids : FreshPids [] (soloBefore ++ soloCall) := by decide +kernel
  have htruthful : Truthful [] (withExits (soloBefore ++ soloCall)) := by decide +kernel
  have hliving : living [] (withExits (soloBefore ++ soloCall)) = [67] := by decide +kernel
  have hcall : Action.Runs soloAgain.ensureRunning soloCall
      (.ok (), (Action.runWith soloMachine soloAgain.ensureRunning (60, none)).1.2) :=
    Action.runs_traceWith soloMachine soloAgain.ensureRunning (60, none)
  have hdaemons : (Action.runWith soloMachine soloAgain.ensureRunning (60, none)).1.2.daemons =
      [soloRunning] := rfl
  have hcoordinator :
      (Action.runWith soloMachine soloAgain.ensureRunning (60, none)).1.2.coordinator = none := rfl
  generalize (Action.runWith soloMachine soloAgain.ensureRunning (60, none)).1.2 = s'
    at hcall hdaemons hcoordinator
  obtain ⟨-, -, hheld, log, piece, -, -, hlog, hpiece, -, -, -, -, hdates, -⟩ :=
    running_binary_is_current hconfig hlimit hbefore hcall
  obtain ⟨d, polls, builds, path, hd, hcurrent, -⟩ := hdates 0 soloDaemon rfl
  rw [hdaemons] at hd
  obtain rfl : soloRunning = d := Option.some.inj hd
  obtain rfl : soloBinary = path := Option.some.inj hcurrent.executable_eq
  refine ⟨hconfig, hlimit, hbefore, hpids, htruthful, hliving, s', hcall, hdaemons, ?_,
    log ++ piece, polls, builds, ?_, hcurrent, hcurrent.started 67 rfl⟩
  · have halive : 67 ∈ living [] (withExits (soloBefore ++ soloCall)) := by
      rw [hliving]
      exact List.mem_singleton.mpr rfl
    rcases hheld hpids _ (exchanges_withExits _) htruthful 67 halive with ⟨c, hc, -⟩ |
      ⟨i, d, path, hd, -, hpath, hbinary⟩
    · rw [hcoordinator] at hc
      cases hc
    · rw [hdaemons] at hd
      obtain rfl : d = soloRunning := List.mem_singleton.mp (List.mem_of_getElem? hd)
      obtain rfl : soloBinary = path := Option.some.inj hpath
      exact hbinary
  · rw [trace_append, hlog, hpiece]

end DaemonKeeper.Supervisor
