import DaemonKeeper.Proofs.Outcome
import DaemonKeeper.Proofs.RunLogs
import DaemonKeeper.Proofs.StopSignals
set_option autoImplicit false

/-!
# What a run leaves behind (SPEC §5)

A run that succeeds has let go of the children of all its daemons, and lets a child go only when it
knows that it has ended.  So the coordinator is all that may still live.  Nothing in the run was
addressed to it but queries: it is started once, before any command, and the signals and kills of
the run go to the children of daemons, the kills only after a stop that was given up.
-/

namespace DaemonKeeper

open Log ManagedProcess

/-- The exchange hands a command to the machine. -/
def Exchange.isCommand : Exchange → Bool
  | ⟨.run _ _, _⟩ => true
  | _ => false

namespace ManagedProcess

variable {p p' : ManagedProcess} {trace : List Exchange}

/-- A query asks for the status of a child and for nothing else. -/
theorem Asked.request_eq {running : Bool} (h : Asked p trace running p') :
    ∀ e ∈ trace, ∃ pid, e.request = .status pid := by
  cases h <;> simp

/-- A start looks at the executable, asks for the status of a child, and starts one at most once. -/
theorem Started.restrained {executable : Path} {arguments : List String}
    {outcome : Except Fault Unit} (h : Started p executable arguments trace outcome p') :
    (∀ e ∈ trace, e.isCommand = false ∧ e.signal? = none ∧ e.killed? = none) ∧
      trace.countP Exchange.startsChild ≤ 1 := by
  have hlook : ∀ found, (⟨.isExecutable executable, found⟩ : Exchange).isCommand = false ∧
      (⟨.isExecutable executable, found⟩ : Exchange).signal? = none ∧
      (⟨.isExecutable executable, found⟩ : Exchange).killed? = none := fun _ => ⟨rfl, rfl, rfl⟩
  have hquery : ∀ {p q : ManagedProcess} {first : List Exchange} {running : Bool},
      Asked p first running q →
      (∀ e ∈ first, e.isCommand = false ∧ e.signal? = none ∧ e.killed? = none) ∧
        first.countP Exchange.startsChild = 0 := by
    intro p q first running hasked
    cases hasked <;> simp [Exchange.isCommand, Exchange.signal?, Exchange.killed?,
      Exchange.startsChild]
  cases h with
  | notExecutable => simp [hlook, Exchange.startsChild]
  | alreadyRunning hfirst hsecond =>
    obtain ⟨hfirst, hfirst'⟩ := hquery hfirst
    obtain ⟨hsecond, hsecond'⟩ := hquery hsecond
    refine ⟨List.forall_mem_cons.mpr ⟨hlook true, List.forall_mem_append.mpr ⟨hfirst, hsecond⟩⟩, ?_⟩
    simp [List.countP_append, hfirst', hsecond', Exchange.startsChild]
  | refused hasked =>
    obtain ⟨hfirst, hfirst'⟩ := hquery hasked
    refine ⟨List.forall_mem_cons.mpr ⟨hlook true, List.forall_mem_append.mpr ⟨hfirst, ?_⟩⟩, ?_⟩
    · exact List.forall_mem_singleton.mpr ⟨rfl, rfl, rfl⟩
    · simp [List.countP_append, hfirst', Exchange.startsChild]
  | spawned hasked =>
    obtain ⟨hfirst, hfirst'⟩ := hquery hasked
    refine ⟨List.forall_mem_cons.mpr ⟨hlook true, List.forall_mem_append.mpr ⟨hfirst, ?_⟩⟩, ?_⟩
    · exact List.forall_mem_singleton.mpr ⟨rfl, rfl, rfl⟩
    · simp [List.countP_append, hfirst', Exchange.startsChild]

end ManagedProcess

namespace Supervisor

variable {s s₀ s₁ s' : Supervisor} {opening front closing log : Log} {outcome : Except Fault Unit}

/-! ## Shutting a daemon down -/

/-- A daemon that is shut down is stopped, and its child is killed if the stop was given up. -/
inductive ShutDown (d : Daemon) : List Exchange → Except Fault Unit → ManagedProcess → Prop
  | stopped {turn : List Exchange} {outcome : Except Fault Unit} {p : ManagedProcess} :
    Stopped d.process turn outcome p → ShutDown d turn outcome p
  | killed {stop kill : List Exchange} {label : String} {target : Int} {checks : Nat}
      {outcome : Except Fault Unit} {p q : ManagedProcess} :
    Stopped d.process stop (.error (.stopTimeout label target checks)) p →
    Killed p kill outcome q → ShutDown d (stop ++ kill) outcome q

variable {d d' : Daemon} {turn : List Exchange}

/-- Shutting down has no other runs. -/
theorem shutDown_of_runs_shutdown (h : Action.Runs d.shutdown turn (outcome, d')) :
    ∃ p, ShutDown d turn outcome p ∧ d' = d.withProcess p := by
  obtain ⟨stop, rest, ⟨answer, p⟩, rfl, hstop, hrest⟩ := Action.runs_bind_iff.mp h
  have hstopped := stopped_of_runs_stop hstop
  cases hstopped with
  | timedOut hfirst hsecond hwait hlast =>
    have hgivenUp := Stopped.timedOut hfirst hsecond hwait hlast
    obtain ⟨kill, last, ⟨answer, q⟩, rfl, hkill, hend⟩ := Action.runs_bind_iff.mp hrest
    obtain ⟨rfl, rfl, rfl⟩ := Action.runs_pure_pair_iff.mp hend
    rw [List.append_nil]
    exact ⟨q, .killed hgivenUp (killed_of_runs_kill hkill), rfl⟩
  | idle hasked =>
    obtain ⟨rfl, rfl, rfl⟩ := Action.runs_pure_pair_iff.mp hrest
    rw [List.append_nil]
    exact ⟨p, .stopped (.idle hasked), rfl⟩
  | refused hfirst hsecond =>
    obtain ⟨rfl, rfl, rfl⟩ := Action.runs_pure_pair_iff.mp hrest
    rw [List.append_nil]
    exact ⟨p, .stopped (.refused hfirst hsecond), rfl⟩
  | ended hfirst hsecond hwait hlast =>
    obtain ⟨rfl, rfl, rfl⟩ := Action.runs_pure_pair_iff.mp hrest
    rw [List.append_nil]
    exact ⟨p, .stopped (.ended hfirst hsecond hwait hlast), rfl⟩

namespace ShutDown

variable {p : ManagedProcess}

theorem keepsToChild (h : ShutDown d turn outcome p) : KeepsToChild d.process turn p := by
  cases h with
  | stopped hstopped => exact hstopped.keepsToChild
  | killed hstopped hkilled => exact hstopped.keepsToChild.append hkilled.keepsToChild

/-- If it succeeds, nothing is held any more. -/
theorem child_eq_none (h : ShutDown d turn (.ok ()) p) : p.child = none := by
  cases h with
  | stopped hstopped => exact hstopped.child_eq_none
  | killed _ hkilled => exact hkilled.child_eq_none

/-- What comes before a kill is a stop of that child that was given up. -/
theorem overdue (h : ShutDown d turn outcome p) {before after : List Exchange} {e : Exchange}
    {pid : Nat} (hturn : turn = before ++ e :: after) (he : e.killed? = some pid) :
    Overdue d.process.stopPolicy pid before := by
  have hnoKills : ∀ {stop : List Exchange}, NoKills stop → e ∉ stop := by
    intro stop hstop hmem
    rw [hstop e hmem] at he
    cases he
  cases h with
  | stopped hstopped => exact absurd (by simp [hturn]) (hnoKills hstopped.noKills)
  | @killed stop kill _ _ _ _ q _ hstopped hkilled =>
    obtain ⟨child, hchild, rfl, hoverdue⟩ := hstopped.overdue
    have hkill : ∃ reply, kill = [⟨.kill child, reply⟩] := by
      cases hkilled with
      | idle hnone =>
        rw [hchild] at hnone
        cases hnone
      | refused hheld => exact ⟨_, by rw [Option.some.inj (hchild.symm.trans hheld)]⟩
      | ended hheld => exact ⟨_, by rw [Option.some.inj (hchild.symm.trans hheld)]⟩
    obtain ⟨reply, rfl⟩ := hkill
    -- The stop itself kills nothing, so the exchange is the one after it.
    rcases List.append_eq_append_iff.mp hturn.symm with ⟨rest, hstop, hrest⟩ |
      ⟨rest, hbefore, hrest⟩
    · cases rest with
      | nil =>
        obtain ⟨rfl, -⟩ := List.cons.inj hrest
        obtain rfl : child = pid := Option.some.inj he
        rwa [hstop, List.append_nil] at hoverdue
      | cons e' rest =>
        obtain ⟨rfl, -⟩ := List.cons.inj hrest
        exact absurd (by simp [hstop]) (hnoKills hstopped.noKills)
    · cases rest with
      | nil =>
        obtain ⟨rfl, -⟩ := List.cons.inj hrest
        obtain rfl : child = pid := Option.some.inj he
        rwa [hbefore, List.append_nil]
      | cons e' rest => simp at hrest

end ShutDown

/-! ## The closing of a run -/

/-- Every kill in a log is one by a daemon of a child whose stop, just before, was given up. -/
def KillsOverdue (policy : StopPolicy) (log : Log) : Prop :=
  ∀ before party e after pid, log = before ++ (party, e) :: after → e.killed? = some pid →
    ∃ i, party = .daemon i ∧ Overdue policy pid (Log.own party before)

/-- Kills in the turn of one daemon. -/
theorem killsOverdue_entries {i : Nat} {p : ManagedProcess} (h : ShutDown d turn outcome p) :
    KillsOverdue d.process.stopPolicy (entries (.daemon i) turn) := by
  intro before party e after pid hlog he
  obtain ⟨first, rest, rfl, hfirst, hrest⟩ := List.map_eq_append_iff.mp hlog
  obtain ⟨e', last, rfl, hentry, -⟩ := List.map_eq_cons_iff.mp hrest
  obtain ⟨rfl, rfl⟩ := Prod.mk.inj hentry
  refine ⟨i, rfl, ?_⟩
  have hown : Log.own (.daemon i) before = first := by
    rw [← hfirst]
    exact own_entries_self _ first
  rw [hown]
  exact h.overdue rfl he

/-- If a kill is not in the first of two logs, and the first is none of its party's business, then
whether it was overdue is seen from the second. -/
theorem KillsOverdue.append {policy : StopPolicy} {rest : Log} (h : KillsOverdue policy log)
    (h' : KillsOverdue policy rest) (hother : ∀ entry ∈ rest, log.own entry.1 = []) :
    KillsOverdue policy (log ++ rest) := by
  intro before party e after pid hlog he
  rcases List.append_eq_append_iff.mp hlog.symm with ⟨later, hfirst, hrest⟩ |
    ⟨sooner, hbefore, hrest⟩
  · cases later with
    | nil =>
      rw [List.append_nil] at hfirst
      rw [List.nil_append] at hrest
      obtain ⟨i, rfl, hoverdue⟩ := h' [] party e after pid hrest.symm he
      have hmem : (Party.daemon i, e) ∈ rest := by
        rw [← hrest]
        exact List.mem_cons_self
      have hnone : log.own (.daemon i) = [] := hother _ hmem
      rw [← hfirst, hnone]
      exact ⟨i, rfl, hoverdue⟩
    | cons entry later =>
      obtain ⟨rfl, -⟩ := List.cons.inj hrest
      exact h before party e later pid hfirst he
  · obtain ⟨i, rfl, hoverdue⟩ := h' sooner party e after pid hrest he
    have hnone : log.own (.daemon i) = [] := hother (.daemon i, e) (by simp [hrest])
    refine ⟨i, rfl, ?_⟩
    rw [hbefore, own_append, hnone, List.nil_append]
    exact hoverdue

/-- The shutdown of all daemons kills only those whose stop was given up. -/
theorem Tour.killsOverdue {policy : StopPolicy} {i : Nat} {ds ds' : List Daemon}
    {answers : Except Fault (List Unit)}
    (h : Tour (fun _ d => d.shutdown) i ds log answers ds')
    (hpolicy : ∀ d ∈ ds, d.process.stopPolicy = policy) : KillsOverdue policy log := by
  induction h with
  | nil =>
    intro before party e after pid hlog
    cases before <;> cases hlog
  | @failed i d d' turn fault rest hturn =>
    obtain ⟨p, hshut, rfl⟩ := shutDown_of_runs_shutdown hturn
    rw [← hpolicy d List.mem_cons_self]
    exact killsOverdue_entries hshut
  | @cons i d d' turn a rest rest' log answers hturn htour ih =>
    obtain ⟨p, hshut, rfl⟩ := shutDown_of_runs_shutdown hturn
    have hfirst := hpolicy d List.mem_cons_self
    have hrest := ih fun d hd => hpolicy d (List.mem_cons_of_mem _ hd)
    refine .append (by rw [← hfirst]; exact killsOverdue_entries hshut) hrest ?_
    intro entry hentry
    obtain ⟨j, hj, hparty⟩ := htour.party_eq entry hentry
    rw [hparty]
    refine own_entries_of_ne (fun heq => ?_) turn
    cases heq
    omega

/-- If it succeeds, no daemon holds anything. -/
theorem Tour.child_eq_none {i : Nat} {ds ds' : List Daemon} {answers : Except Fault (List Unit)}
    (h : Tour (fun _ d => d.shutdown) i ds log answers ds') (hok : ∃ as, answers = .ok as) :
    ∀ d ∈ ds', d.process.child = none := by
  induction h with
  | nil => nofun
  | failed _ =>
    obtain ⟨as, hfault⟩ := hok
    cases hfault
  | @cons i d d' turn a rest rest' log answers hturn _ ih =>
    obtain ⟨p, hshut, rfl⟩ := shutDown_of_runs_shutdown hturn
    obtain ⟨as, hwhole⟩ := hok
    exact List.forall_mem_cons.mpr ⟨hshut.child_eq_none, ih (exists_eq_ok_of_map hwhole.symm)⟩

/-! ## The parties of a run -/

/-- The loop has nothing to do with processes, and the coordinator's handle only asks for status. -/
structure AsksOnly (log : Log) : Prop where
  loop : ∀ e ∈ log.own .loop, e.request.aboutProcess = false
  coordinator : ∀ e ∈ log.own .coordinator, ∃ pid, e.request = .status pid

namespace AsksOnly

theorem nil : AsksOnly [] := ⟨nofun, nofun⟩

theorem append (h : AsksOnly log) (h' : AsksOnly front) : AsksOnly (log ++ front) where
  loop := by
    rw [own_append]
    exact List.forall_mem_append.mpr ⟨h.loop, h'.loop⟩
  coordinator := by
    rw [own_append]
    exact List.forall_mem_append.mpr ⟨h.coordinator, h'.coordinator⟩

/-- Daemons may do what they like. -/
theorem of_daemons (h : ∀ entry ∈ log, ∃ i, entry.1 = Party.daemon i) : AsksOnly log := by
  constructor
  · intro e he
    obtain ⟨i, hi⟩ := h _ (mem_own_iff.mp he)
    cases hi
  · intro e he
    obtain ⟨i, hi⟩ := h _ (mem_own_iff.mp he)
    cases hi

theorem of_entries (i : Nat) (turn : List Exchange) : AsksOnly (entries (.daemon i) turn) := by
  refine .of_daemons fun entry hentry => ?_
  obtain ⟨e, -, rfl⟩ := List.mem_map.mp hentry
  exact ⟨i, rfl⟩

end AsksOnly

variable {kind : Daemon → List Exchange → Daemon → Prop}

/-- Every stretch of a run is like that. -/
theorem Logged.asksOnly (h : Logged kind s log s') : AsksOnly log := by
  induction h with
  | refl s => exact .nil
  | turn _ _ _ ih => exact (AsksOnly.of_entries _ _).append ih
  | query _ hasked _ ih =>
    refine AsksOnly.append ⟨?_, ?_⟩ ih
    · rw [own_entries_of_ne (by decide)]
      nofun
    · rw [own_entries_self]
      exact hasked.request_eq
  | wait he _ ih =>
    refine AsksOnly.append ⟨?_, ?_⟩ ih
    · rw [own_entries_self]
      exact List.forall_mem_singleton.mpr he
    · rw [own_entries_of_ne (by decide)]
      nofun

/-- What every turn keeps of a daemon, the stretch keeps of all of them. -/
theorem Logged.forall_daemons {P : Daemon → Prop} (h : Logged kind s log s')
    (hkind : ∀ d turn d', kind d turn d' → P d → P d') (hs : ∀ d ∈ s.daemons, P d) :
    ∀ d ∈ s'.daemons, P d := by
  induction h with
  | refl s => exact hs
  | turn hd hturn _ ih =>
    refine ih fun d hmem => ?_
    rcases List.mem_or_eq_of_mem_set hmem with hmem | rfl
    · exact hs d hmem
    · exact hkind _ _ _ hturn (hs _ (List.mem_of_getElem? hd))
  | query _ _ _ ih => exact ih hs
  | wait _ _ ih => exact ih hs

/-- Nothing is killed before the shutdown. -/
theorem Logged.noKills (h : Logged Turn s log s') : NoKills (trace log) := by
  induction h with
  | refl s => exact .nil
  | turn _ hturn _ ih =>
    rw [trace_append, trace_entries]
    exact hturn.attended.noKills.append ih
  | query _ hasked _ ih =>
    rw [trace_append, trace_entries]
    exact hasked.noKills.append ih
  | @wait _ _ e _ he _ ih =>
    rw [trace_append, trace_entries]
    exact (NoKills.of_processFree (List.forall_mem_singleton.mpr he)).append ih

/-- The coordinator is started, if there is one, or cannot be. -/
theorem started_of_runs_startCoordinator {trace : List Exchange}
    (h : Action.Runs s.startCoordinator trace (outcome, s')) :
    (s.coordinator = none ∧ trace = [] ∧ outcome = .ok () ∧ s' = s) ∨
    ∃ c p, s.coordinator = some c ∧
      Started c.process c.spec.executable c.spec.arguments trace outcome p ∧
      s' = s.withCoordinator c p := by
  unfold startCoordinator at h
  split at h
  · rename_i hcoordinator
    obtain ⟨rfl, rfl, rfl⟩ := Action.runs_pure_pair_iff.mp h
    exact .inl ⟨hcoordinator, rfl, rfl, rfl⟩
  · rename_i c hcoordinator
    obtain ⟨start, last, ⟨answer, p⟩, rfl, hstart, hend⟩ := Action.runs_bind_iff.mp h
    obtain ⟨rfl, rfl, rfl⟩ := Action.runs_pure_pair_iff.mp hend
    rw [List.append_nil]
    exact .inr ⟨c, p, hcoordinator, started_of_runs_start hstart, rfl⟩

/-- The coordinator is not one of the daemons. -/
theorem daemons_of_runs_startCoordinator {exchanged : List Exchange}
    (h : Action.Runs s.startCoordinator exchanged (outcome, s')) : s'.daemons = s.daemons := by
  rcases started_of_runs_startCoordinator h with ⟨-, -, -, rfl⟩ | ⟨c, p, -, -, rfl⟩ <;> rfl

/-- The start of the coordinator is recorded as its own, also if it fails. -/
theorem Recorded.of_startCoordinator {exchanged : List Exchange}
    (h : Action.Runs s.startCoordinator exchanged (outcome, s')) :
    Recorded s (entries .coordinator exchanged) s' := by
  rcases started_of_runs_startCoordinator h with ⟨-, rfl, -, rfl⟩ |
    ⟨c, p, hcoordinator, hstarted, rfl⟩
  · exact .refl s'
  · exact .of_coordinator hcoordinator hstarted.keepsToChild

/-! ## Fresh supervisors -/

/-- In a supervisor that was just set up nothing is built and nothing is held. -/
theorem fresh_of_ofConfig {cfg : Config} {cpus : Nat} (h : ofConfig cfg cpus = .ok s₀) :
    ∀ d ∈ s₀.daemons, d.executable = none ∧ d.process.child = none := by
  obtain ⟨ds, hds, h⟩ := bind_eq_ok_iff.mp h
  obtain rfl := Except.ok.inj h
  intro d hd
  obtain ⟨entry, -, hentry⟩ := mem_of_mapM_ok hds hd
  obtain ⟨project, -, hentry⟩ := bind_eq_ok_iff.mp hentry
  obtain rfl := Except.ok.inj hentry
  exact ⟨rfl, rfl⟩

/-- In a supervisor that was just set up nobody holds anything. -/
theorem holdings_of_ofConfig {cfg : Config} {cpus : Nat} (h : ofConfig cfg cpus = .ok s₀) :
    s₀.holdings = fun _ => none := by
  have hfresh := fresh_of_ofConfig h
  obtain ⟨ds, -, h⟩ := bind_eq_ok_iff.mp h
  obtain rfl := Except.ok.inj h
  funext party
  cases party with
  | loop => rfl
  | coordinator => cases cfg.coordinator <;> simp [holdings]
  | daemon i =>
    refine Option.bind_eq_none_iff.mpr fun d hd => ?_
    exact (hfresh d (List.mem_of_getElem? hd)).2

/-- Every daemon has the stop policy of the configuration. -/
theorem stopPolicy_of_ofConfig {cfg : Config} {cpus : Nat} (h : ofConfig cfg cpus = .ok s₀) :
    ∀ d ∈ s₀.daemons, d.process.stopPolicy = cfg.stopPolicy := by
  obtain ⟨ds, hds, h⟩ := bind_eq_ok_iff.mp h
  obtain rfl := Except.ok.inj h
  intro d hd
  obtain ⟨entry, -, hentry⟩ := mem_of_mapM_ok hds hd
  obtain ⟨project, -, hentry⟩ := bind_eq_ok_iff.mp hentry
  obtain rfl := Except.ok.inj hentry
  rfl

/-- The loop waits as long as the configuration says. -/
theorem pollInterval_of_startCoordinator {cfg : Config} {cpus : Nat} {start : List Exchange}
    (hconfig : ofConfig cfg cpus = .ok s₀)
    (hstart : Action.Runs s₀.startCoordinator start (outcome, s₁)) :
    s₁.pollInterval = cfg.pollInterval := by
  obtain ⟨ds, -, h⟩ := bind_eq_ok_iff.mp hconfig
  obtain rfl := Except.ok.inj h
  rcases started_of_runs_startCoordinator hstart with ⟨-, -, -, rfl⟩ | ⟨c, p, -, -, rfl⟩ <;> rfl

/-! ## Whole runs -/

/-- The coordinator is asked for at most once, and before any command. -/
structure StartedOnce (log : Log) : Prop where
  atMostOnce : (log.own .coordinator).countP Exchange.startsChild ≤ 1
  beforeCommands : ∀ before e after, log = before ++ (.coordinator, e) :: after →
    e.startsChild = true → ∀ entry ∈ before, entry.2.isCommand = false

/-- Every signal asks a process to end and is sent for a daemon, to the child that it holds or to
the process id of nothing, and every kill is of the child that a daemon holds.  Neither is addressed
to the child that the coordinator's handle holds. -/
def SparesCoordinator (table : Holdings) (log : Log) : Prop :=
  ∀ before party e after, log = before ++ (party, e) :: after →
    (∀ target signal, e.signal? = some (target, signal) → signal = .terminate ∧
      (∃ i, party = .daemon i) ∧ target = told (table.after before party) ∧
      ∀ pid, table.after before .coordinator = some pid → target ≠ pid) ∧
    ∀ pid, e.killed? = some pid → (∃ i, party = .daemon i) ∧
      table.after before party = some pid ∧ table.after before .coordinator ≠ some pid

namespace Logged.Whole

/-- A whole run is recorded. -/
theorem recorded (h : Whole s opening front closing outcome s') :
    Recorded s (opening ++ front ++ closing) s' := by
  cases h with
  | refused hstart =>
    rw [List.append_nil, List.append_nil]
    exact Recorded.of_startCoordinator hstart
  | underWay hstart hended =>
    cases hended with
    | broken hlogged =>
      rw [List.append_nil]
      exact (Recorded.of_startCoordinator hstart).append
        (hlogged.recorded fun _ _ _ hturn => hturn.attended.keepsToChild)
    | shutDown hlogged htour =>
      have hclosing :
          Logged (fun d turn d' => KeepsToChild d.process turn d'.process) _ closing _ :=
        htour.logged (fun _ d turn answer d' hturn => by
          obtain ⟨p, hshut, rfl⟩ := shutDown_of_runs_shutdown hturn
          exact hshut.keepsToChild) [] rfl _ rfl
      exact ((Recorded.of_startCoordinator hstart).append
        (hlogged.recorded fun _ _ _ hturn => hturn.attended.keepsToChild)).append
        (hclosing.recorded fun _ _ _ hkeeps => hkeeps)

/-- What the coordinator's handle does at first is to start its child; nobody else does anything. -/
theorem opening_eq (h : Whole s opening front closing outcome s') :
    ∃ exchanged, opening = entries .coordinator exchanged ∧
      (∀ e ∈ exchanged, e.isCommand = false ∧ e.signal? = none ∧ e.killed? = none) ∧
      exchanged.countP Exchange.startsChild ≤ 1 := by
  have hrestrained : ∀ {exchanged : List Exchange} {outcome : Except Fault Unit} {s₁ : Supervisor},
      Action.Runs s.startCoordinator exchanged (outcome, s₁) →
      (∀ e ∈ exchanged, e.isCommand = false ∧ e.signal? = none ∧ e.killed? = none) ∧
      exchanged.countP Exchange.startsChild ≤ 1 := by
    intro exchanged outcome s₁ hstart
    rcases started_of_runs_startCoordinator hstart with ⟨-, rfl, -, -⟩ | ⟨c, p, -, hstarted, -⟩
    · exact ⟨nofun, Nat.zero_le 1⟩
    · exact hstarted.restrained
  cases h with
  | refused hstart => exact ⟨_, rfl, hrestrained hstart⟩
  | underWay hstart _ => exact ⟨_, rfl, hrestrained hstart⟩

/-- After that it only asks for the status of its child. -/
theorem asksOnly (h : Whole s opening front closing outcome s') : AsksOnly (front ++ closing) := by
  cases h with
  | refused _ => exact .nil
  | underWay _ hended =>
    cases hended with
    | broken hlogged => exact hlogged.asksOnly.append .nil
    | shutDown hlogged htour =>
      refine hlogged.asksOnly.append (.of_daemons fun entry hentry => ?_)
      obtain ⟨j, -, hparty⟩ := htour.party_eq entry hentry
      exact ⟨j, hparty⟩

theorem startedOnce (h : Whole s opening front closing outcome s') :
    StartedOnce (opening ++ front ++ closing) := by
  obtain ⟨exchanged, rfl, hrestrained, hcount⟩ := h.opening_eq
  have hlater : ∀ e ∈ own .coordinator (front ++ closing), e.startsChild = false := by
    intro e he
    obtain ⟨pid, hrequest⟩ := h.asksOnly.coordinator e he
    obtain ⟨request, reply⟩ := e
    obtain rfl : request = .status pid := hrequest
    rfl
  rw [List.append_assoc]
  constructor
  · rw [own_append, own_entries_self, List.countP_append]
    have hnone : (own .coordinator (front ++ closing)).countP Exchange.startsChild = 0 :=
      List.countP_eq_zero.mpr fun e he => by rw [hlater e he]; decide
    omega
  · intro before e after hlog hstarts entry hentry
    rcases List.append_eq_append_iff.mp hlog with ⟨sooner, hbefore, hrest⟩ | ⟨rest, hopening, hrest⟩
    · have hmem : (Party.coordinator, e) ∈ front ++ closing := by simp [hrest]
      rw [hlater e (mem_own_iff.mpr hmem)] at hstarts
      cases hstarts
    · have hmem : entry ∈ entries .coordinator exchanged := by
        rw [hopening]
        exact List.mem_append_left _ hentry
      obtain ⟨e', he', rfl⟩ := List.mem_map.mp hmem
      exact (hrestrained e' he').1

/-- Only daemons signal and kill. -/
theorem daemon_of_violence (h : Whole s opening front closing outcome s') {party : Party}
    {e : Exchange} (hmem : (party, e) ∈ opening ++ front ++ closing)
    (he : e.signal? ≠ none ∨ e.killed? ≠ none) : ∃ i, party = .daemon i := by
  obtain ⟨exchanged, rfl, hrestrained, -⟩ := h.opening_eq
  rw [List.append_assoc, List.mem_append] at hmem
  rcases hmem with hmem | hmem
  · obtain ⟨e', he', heq⟩ := List.mem_map.mp hmem
    obtain ⟨rfl, rfl⟩ := Prod.mk.inj heq
    obtain ⟨-, hsignal, hkilled⟩ := hrestrained e' he'
    rcases he with he | he
    · exact absurd hsignal he
    · exact absurd hkilled he
  cases party with
  | daemon i => exact ⟨i, rfl⟩
  | loop =>
    have hfree := h.asksOnly.loop e (mem_own_iff.mpr hmem)
    obtain ⟨request, reply⟩ := e
    cases request with
    | signal | kill => cases hfree
    | _ => simp [Exchange.signal?, Exchange.killed?] at he
  | coordinator =>
    obtain ⟨pid, hrequest⟩ := h.asksOnly.coordinator e (mem_own_iff.mpr hmem)
    obtain ⟨request, reply⟩ := e
    obtain rfl : request = .status pid := hrequest
    simp [Exchange.signal?, Exchange.killed?] at he

theorem sparesCoordinator (h : Whole s opening front closing outcome s') {out : List Nat}
    (hheldOnce : HeldOnce s.holdings out)
    (hfresh : FreshPids out (Log.trace (opening ++ front ++ closing))) :
    SparesCoordinator s.holdings (opening ++ front ++ closing) := by
  intro before party e after hlog
  have hmem : (party, e) ∈ opening ++ front ++ closing := by simp [hlog]
  have hviolence := h.daemon_of_violence hmem
  have hkept := h.recorded.kept
  rw [hlog] at hkept hfresh
  -- Two different parties hold different children at this moment.
  have hsingle : ∀ i pid, s.holdings.after before (.daemon i) = some pid →
      s.holdings.after before .coordinator ≠ some pid := by
    intro i pid hdaemon hcoordinator
    cases hheldOnce.single_at_moment hkept hfresh hdaemon hcoordinator
  obtain ⟨hproper, -⟩ := Kept.cons_iff.mp (Kept.append_iff.mp hkept).2
  obtain ⟨request, reply⟩ := e
  constructor
  · intro target signal hsignal
    obtain ⟨i, rfl⟩ := hviolence (.inl (by rw [hsignal]; nofun))
    cases request with
    | signal target' signal' =>
      cases hsignal
      obtain ⟨htarget, hterminate⟩ := hproper
      refine ⟨hterminate, ⟨i, rfl⟩, htarget, fun pid hcoordinator hpid => ?_⟩
      exact hsingle i pid (told_eq_iff.mp (htarget.symm.trans hpid)) hcoordinator
    | _ => cases hsignal
  · intro pid hkilled
    obtain ⟨i, rfl⟩ := hviolence (.inr (by rw [hkilled]; nofun))
    cases request with
    | kill pid' =>
      cases hkilled
      exact ⟨⟨i, rfl⟩, hproper, hsingle i pid hproper⟩
    | _ => cases hkilled

/-- Nothing is killed before the shutdown. -/
theorem noKills (h : Whole s opening front closing outcome s') :
    NoKills (Log.trace (opening ++ front)) := by
  have hfront : NoKills (Log.trace front) := by
    cases h with
    | refused _ => exact .nil
    | underWay _ hended =>
      cases hended with
      | broken hlogged => exact hlogged.noKills
      | shutDown hlogged _ => exact hlogged.noKills
  obtain ⟨exchanged, rfl, hrestrained, -⟩ := h.opening_eq
  have hopening : NoKills exchanged := fun e he => (hrestrained e he).2.2
  rw [trace_append, trace_entries]
  exact hopening.append hfront

/-- The shutdown kills only a child whose stop was given up. -/
theorem killsOverdue {policy : StopPolicy} (h : Whole s opening front closing outcome s')
    (hpolicy : ∀ d ∈ s.daemons, d.process.stopPolicy = policy) : KillsOverdue policy closing := by
  have hnone : KillsOverdue policy [] := by
    intro before party e after pid hlog
    cases before <;> cases hlog
  cases h with
  | refused _ => exact hnone
  | @underWay exchanged _ _ _ s₁ _ hstart hended =>
    have hpolicy₁ : ∀ d ∈ s₁.daemons, d.process.stopPolicy = policy := by
      rw [daemons_of_runs_startCoordinator hstart]
      exact hpolicy
    cases hended with
    | broken _ => exact hnone
    | shutDown hlogged htour =>
      refine htour.killsOverdue (hlogged.forall_daemons (fun d turn d' hturn hd => ?_) hpolicy₁)
      rw [hturn.attended.keepsToChild.stopPolicy_eq, hd]

/-- If the run succeeds, nobody but the coordinator's handle holds anything. -/
theorem holdings_eq_none (h : Whole s opening front closing (.ok ()) s') {party : Party}
    (hparty : party ≠ .coordinator) : s'.holdings party = none := by
  generalize hok : (.ok () : Except Fault Unit) = outcome at h
  cases h with
  | refused _ => cases hok
  | underWay _ hended =>
    cases hended with
    | broken _ => cases hok
    | @shutDown _ answers _ ds' _ htour =>
      have hidle : ∀ d ∈ ds', d.process.child = none :=
        htour.child_eq_none (exists_eq_ok_of_map hok)
      cases party with
      | loop => rfl
      | coordinator => exact absurd rfl hparty
      | daemon i => exact Option.bind_eq_none_iff.mpr fun d hd => hidle d (List.mem_of_getElem? hd)

end Logged.Whole

/-- A list without repetitions whose members are all one is empty or has that one member. -/
theorem eq_nil_or_singleton {alive : List Nat} (hnodup : alive.Nodup)
    (h : ∀ pid ∈ alive, ∀ pid' ∈ alive, pid = pid') : alive = [] ∨ ∃ pid, alive = [pid] := by
  rcases alive with - | ⟨pid, - | ⟨pid', rest⟩⟩
  · exact .inl rfl
  · exact .inr ⟨pid, rfl⟩
  · have hsame : pid = pid' := h pid (by simp) pid' (by simp)
    simp [hsame] at hnodup

/-- A run of a supervisor that was just set up, however it ends and whatever the machine replies, as
long as it hands out fresh process ids:

* if it succeeds, then in every history in which the ends of children are confirmed truthfully,
  nothing is alive when it returns but the child that the coordinator's handle holds;
* the coordinator is started at most once and before any command, and no signal and no kill is
  addressed to its child; and
* nothing is killed except in the shutdown at the end, by a daemon whose child was signalled and was
  not seen to end in all the checks of the stop policy. -/
theorem run_leaves_no_daemon {cfg : Config} {cpus : Nat} (hconfig : ofConfig cfg cpus = .ok s₀)
    {limit : Option Nat} {trace : List Exchange}
    (hruns : Action.Runs (s₀.run limit) trace (outcome, s')) (hfresh : FreshPids [] trace) :
    (outcome = .ok () → ∀ history, exchanges history = trace → Truthful [] history →
      living [] history = [] ∨ ∃ c pid, s'.coordinator = some c ∧ c.process.child = some pid ∧
        living [] history = [pid]) ∧
    ∃ opening front closing, Log.trace (opening ++ front ++ closing) = trace ∧
      Logged.Whole s₀ opening front closing outcome s' ∧
      StartedOnce (opening ++ front ++ closing) ∧
      SparesCoordinator s₀.holdings (opening ++ front ++ closing) ∧
      NoKills (Log.trace (opening ++ front)) ∧ KillsOverdue cfg.stopPolicy closing := by
  obtain ⟨opening, front, closing, rfl, hwhole⟩ := whole_of_runs_run hruns
  have hnothing : s₀.holdings = fun _ => none := holdings_of_ofConfig hconfig
  have hheldOnce : HeldOnce s₀.holdings [] := by
    rw [hnothing]
    exact .nothing []
  refine ⟨?_, opening, front, closing, rfl, hwhole, hwhole.startedOnce,
    hwhole.sparesCoordinator hheldOnce hfresh, hwhole.noKills,
    hwhole.killsOverdue (stopPolicy_of_ofConfig hconfig)⟩
  rintro rfl history hhistory htruthful
  have hlivingHeld := (LivingHeld.nothing s₀.holdings).after hheldOnce hwhole.recorded.kept hfresh
    hhistory htruthful
  rw [← hwhole.recorded.holds] at hlivingHeld
  -- Whoever holds something at the end is the coordinator's handle.
  have hheld : ∀ pid ∈ living [] history, s'.holdings .coordinator = some pid := by
    intro pid hpid
    obtain ⟨party, hparty⟩ := hlivingHeld.holder pid hpid
    by_cases hcoordinator : party = .coordinator
    · rwa [hcoordinator] at hparty
    · rw [hwhole.holdings_eq_none hcoordinator] at hparty
      cases hparty
  rcases eq_nil_or_singleton hlivingHeld.nodup fun pid hpid pid' hpid' =>
    Option.some.inj ((hheld pid hpid).symm.trans (hheld pid' hpid')) with hnil | ⟨pid, hpid⟩
  · exact .inl hnil
  · obtain ⟨c, hc, hchild⟩ := Option.bind_eq_some_iff.mp (hheld pid (by simp [hpid]))
    exact .inr ⟨c, pid, hc, hchild, hpid⟩

/-! ## A daemon that does not end -/

/-- The history of a trace in which every child ends just before its end is confirmed. -/
def withExits (trace : List Exchange) : List Event :=
  trace.flatMap fun e =>
    match e.ended? with
    | some pid => [.exit pid, .exchange e]
    | none => [.exchange e]

theorem exchanges_withExits (trace : List Exchange) : exchanges (withExits trace) = trace := by
  induction trace with
  | nil => rfl
  | cons e rest ih =>
    unfold withExits at ih ⊢
    rw [List.flatMap_cons, exchanges_append, ih]
    cases e.ended? <;> rfl

/-- One daemon of one project. -/
def soloConfig : Config :=
  { settings := { organization := "acme" }
    projects := ⟨[("svc", { repository := "svc" })]⟩
    daemons := ⟨[("d", { project := "svc", executable := ⟨"svcd"⟩ })]⟩
    pollInterval := .ofSeconds 60
    stopPolicy := .default }

/-- The daemon, with nothing built and nothing running. -/
def soloDaemon : Daemon :=
  .ofSpec "d" { project := "svc", executable := ⟨"svcd"⟩ }
    { name := "svc"
      spec := { repository := "svc" }
      repository :=
        { parent := ⟨"."⟩
          name := "svc"
          branch := "master"
          host := "github.com"
          organization := "acme" }
      dependencies := []
      privilegePrefix := ["sudo"]
      jobs := 1 } .default

/-- Its supervisor. -/
def solo : Supervisor :=
  { coordinator := none, daemons := [soloDaemon], pollInterval := .ofSeconds 60 }

/-- The one daemon of one project, with a coordinator. -/
def coordinatedConfig : Config :=
  { soloConfig with coordinator := some { executable := ⟨"/usr/bin/hub"⟩ } }

/-- Its supervisor. -/
def coordinated : Supervisor :=
  { solo with
    coordinator := some
      { spec := { executable := ⟨"/usr/bin/hub"⟩ }
        process := { label := "coordinator" } } }

/-- A machine that knows the next process id, and whose children take no notice of signals. -/
def stubbornMachine (q : Request) (next : Nat) : q.Reply × Nat :=
  match q with
  | .run _ command =>
    (.ok ⟨0, [if command.arguments = ["branch"] then "* master" else "old"], []⟩, next)
  | .readFile _ => (.error .notFound, next)
  | .isDirectory _ => (true, next)
  | .isExecutable _ => (true, next)
  | .createDirectory _ => (.ok (), next)
  | .writeFile _ _ => (.ok (), next)
  | .spawn _ _ => (.ok next, next + 1)
  | .status _ => (.alive, next)
  | .signal _ _ => (.ok (), next)
  | .kill _ => (.ok (), next)
  | .sleep _ => ((), next)
  | .pause _ => (.elapsed, next)
  | .clock => (.ofSeconds 0, next)

/-- A run of one cycle on it. -/
def stubbornTrace : List Exchange := Action.traceWith stubbornMachine (coordinated.run (some 1)) 1

/-- The daemon is killed in the end, and the coordinator is what is left. -/
theorem run_leaves_no_daemon_stubborn :
    ofConfig coordinatedConfig 1 = .ok coordinated ∧ FreshPids [] stubbornTrace ∧
    Truthful [] (withExits stubbornTrace) ∧ stubbornTrace.filterMap Exchange.killed? = [2] ∧
    ∃ s', Action.Runs (coordinated.run (some 1)) stubbornTrace (.ok (), s') ∧
      ∃ c pid, s'.coordinator = some c ∧ c.process.child = some pid ∧
        living [] (withExits stubbornTrace) = [pid] := by
  have hconfig : ofConfig coordinatedConfig 1 = .ok coordinated := rfl
  have hfresh : FreshPids [] stubbornTrace := by decide +kernel
  have htruthful : Truthful [] (withExits stubbornTrace) := by decide +kernel
  have hkilled : stubbornTrace.filterMap Exchange.killed? = [2] := by decide +kernel
  have hsome : living [] (withExits stubbornTrace) ≠ [] := by decide +kernel
  have hok : (Action.runWith stubbornMachine (coordinated.run (some 1)) 1).1.1 = .ok () := by
    decide +kernel
  have hruns := Action.runs_traceWith stubbornMachine (coordinated.run (some 1)) 1
  generalize (Action.runWith stubbornMachine (coordinated.run (some 1)) 1).1 = result
    at hok hruns
  obtain ⟨outcome, s'⟩ := result
  obtain rfl : outcome = .ok () := hok
  have hleft := (run_leaves_no_daemon hconfig hruns hfresh).1 rfl (withExits stubbornTrace)
    (exchanges_withExits stubbornTrace) htruthful
  exact ⟨hconfig, hfresh, htruthful, hkilled, s', hruns, hleft.resolve_left hsome⟩

end Supervisor

end DaemonKeeper
