import DaemonKeeper.Proofs.DaemonPasses
import DaemonKeeper.Proofs.LastStart
import DaemonKeeper.Proofs.ObedientChildren
set_option autoImplicit false

/-!
# The cycles of one daemon in a run without faults (SPEC §3.5)

In every cycle a daemon is called up, reported, polled, rebuilt if its sources have changed, and
stopped if its policy tells it to.  If its children are obedient, then the ledger of what was done
to them is exact: each was started once and, when its time had come, asked to end once, and nothing
was ever killed.
-/

namespace DaemonKeeper

open ManagedProcess

/-! ## Deeds -/

/-- Something that is done to processes. -/
inductive Deed where
  | started (pid : Nat)
  | signalled (target : Int) (signal : Signal)
  | killed (pid : Nat)
  deriving DecidableEq, Repr

/-- What the exchange has done to processes. -/
def Exchange.deed? : Exchange → Option Deed
  | ⟨.spawn _ _, .ok pid⟩ => some (.started pid)
  | ⟨.signal target signal, _⟩ => some (.signalled target signal)
  | ⟨.kill pid, _⟩ => some (.killed pid)
  | _ => none

/-- What a trace has done to processes, in order. -/
def deeds (trace : List Exchange) : List Deed := trace.filterMap Exchange.deed?

theorem deeds_append (trace rest : List Exchange) :
    deeds (trace ++ rest) = deeds trace ++ deeds rest :=
  List.filterMap_append

theorem deeds_cons_of_none {e : Exchange} (he : e.deed? = none) (rest : List Exchange) :
    deeds (e :: rest) = deeds rest :=
  List.filterMap_cons_none he

theorem deeds_eq_nil_of_processFree {trace : List Exchange}
    (h : ∀ e ∈ trace, e.request.aboutProcess = false) : deeds trace = [] := by
  refine List.filterMap_eq_nil_iff.mpr fun e he => ?_
  have hfree := h e he
  obtain ⟨request, reply⟩ := e
  cases request with
  | spawn | signal | kill => cases hfree
  | _ => rfl

/-- What is not about processes tells nothing of a child. -/
theorem standing_append_of_processFree {pid : Nat} {own trace : List Exchange}
    (h : ∀ e ∈ trace, e.request.aboutProcess = false) :
    standing pid (own ++ trace) = standing pid own := by
  induction trace generalizing own with
  | nil => rw [List.append_nil]
  | cons e rest ih =>
    have hrest : standing pid (own ++ [e] ++ rest) = standing pid (own ++ [e]) :=
      ih fun e' he' => h e' (List.mem_cons_of_mem e he')
    rw [List.append_assoc, List.singleton_append] at hrest
    rw [hrest, standing_concat]
    have hfree := h e List.mem_cons_self
    obtain ⟨request, reply⟩ := e
    cases request with
    | spawn | status | signal | kill => cases hfree
    | _ => rfl

namespace ManagedProcess

variable {p q : ManagedProcess} {own query start stop : List Exchange} {pid maxChecks : Nat}
variable {running : Bool} {outcome : Except Fault Unit}

theorem Asked.deeds_eq_nil (h : Asked p query running q) : deeds query = [] := by
  cases h <;> rfl

theorem Awaited.deeds_eq_nil {remaining checks total : Nat}
    (h : Awaited remaining checks p query total q) : deeds query = [] := by
  induction h with
  | exhausted => rfl
  | ended hasked => exact hasked.deeds_eq_nil
  | slept hasked _ ih =>
    rw [deeds_append, hasked.deeds_eq_nil, List.nil_append]
    exact (deeds_cons_of_none rfl _).trans ih

/-! ## A child that runs -/

/-- The handle holds a child that runs, seen from the exchanges of the handle so far. -/
structure Running (p : ManagedProcess) (own : List Exchange) (pid : Nat) : Prop where
  child_eq : p.child = some pid
  held_eq : held none own = some pid
  standing_eq : standing pid own = .running

namespace Running

/-- A query finds the child running. -/
theorem asked (h : Running p own pid) (hasked : Asked p query running q)
    (hled : LedBy maxChecks (own ++ query)) :
    running = true ∧ q = p ∧ Running p (own ++ query) pid := by
  obtain ⟨reply, rfl, hreply, -⟩ := hasked.of_child h.child_eq
  have hallowed := hled own _ [] pid rfl h.held_eq
  rw [h.standing_eq] at hallowed
  have hnot : reply ≠ .exited := by simpa [Standing.allows] using hallowed
  obtain rfl : running = true := hreply.mpr hnot
  have hsame := hasked.eq_of_running
  have hheld := hasked.keepsToChild.child_eq
  refine ⟨rfl, hsame, h.child_eq, ?_, ?_⟩
  · rw [held_append, h.held_eq, ← h.child_eq, ← hheld, hsame]
  · rw [standing_concat, h.standing_eq]
    cases reply with
    | exited => exact absurd rfl hnot
    | alive => simp [Standing.after, Standing.asked]
    | unknown => simp [Standing.after, Standing.asked]

/-- What is not about processes leaves the child running. -/
theorem append_of_processFree {trace : List Exchange} (h : Running p own pid)
    (hfree : ∀ e ∈ trace, e.request.aboutProcess = false) : Running p (own ++ trace) pid where
  child_eq := h.child_eq
  held_eq := by
    have hkeeps : KeepsToChild p trace p := .of_processFree hfree
    rw [held_append, h.held_eq, ← h.child_eq]
    exact hkeeps.child_eq.symm
  standing_eq := (standing_append_of_processFree hfree).trans h.standing_eq

/-- A stop asks the child to end, and does nothing else to processes. -/
theorem deeds_stop (h : Running p own pid) (hstopped : Stopped p stop (.ok ()) q)
    (hled : LedBy maxChecks (own ++ stop)) : deeds stop = [.signalled pid .terminate] := by
  cases hstopped with
  | idle hasked =>
    obtain ⟨hrunning, -⟩ := h.asked hasked hled
    cases hrunning
  | @ended first second third last running checks q r s t hfirst hsecond hwait hlast =>
    rw [← List.append_assoc, ← List.append_assoc] at hled
    obtain ⟨-, rfl, hstill⟩ := h.asked hfirst hled.left.left
    obtain ⟨-, rfl, -⟩ := hstill.asked hsecond hled.left
    have htold : r.toldPid = pid := by rw [toldPid_eq, h.child_eq, told]
    rw [htold, deeds_append, deeds_append, hfirst.deeds_eq_nil, hsecond.deeds_eq_nil]
    change .signalled pid .terminate :: deeds (third ++ last) = _
    rw [deeds_append, hwait.deeds_eq_nil, hlast.deeds_eq_nil]
    rfl

end Running

/-- A start that succeeds where nothing is held looks at the executable and starts a child. -/
theorem Started.of_child_eq_none {executable : Path} {arguments : List String}
    (h : Started p executable arguments start (.ok ()) q) (hnone : p.child = none) :
    ∃ pid, start = [⟨.isExecutable executable, true⟩, ⟨.spawn executable arguments, .ok pid⟩] ∧
      q = { p with child := some pid } := by
  cases h with
  | @spawned first q pid hasked =>
    cases hasked with
    | idle _ => exact ⟨pid, rfl, rfl⟩
    | ended hchild =>
      rw [hnone] at hchild
      cases hchild

/-- A child that was just started runs. -/
theorem running_of_started {executable : Path} {arguments : List String}
    (h : Started p executable arguments start (.ok ()) q) (hnone : p.child = none)
    (hheld : held none own = none) :
    ∃ pid, Running q (own ++ start) pid ∧ deeds start = [.started pid] := by
  obtain ⟨pid, rfl, rfl⟩ := h.of_child_eq_none hnone
  refine ⟨pid, ⟨rfl, ?_, ?_⟩, rfl⟩
  · rw [held_append, hheld]
    rfl
  · have hsplit : ∀ e e' : Exchange, own ++ [e, e'] = (own ++ [e]) ++ [e'] := by simp
    rw [hsplit, standing_concat]
    exact if_pos rfl

end ManagedProcess

namespace Supervisor

/-! ## Phases -/

/-- Where a daemon is in a cycle. -/
inductive Phase where
  /-- Between cycles. -/
  | resting
  | called
  | reported
  | polled (changed : Bool)
  deriving DecidableEq

/-- What a daemon has been through in a run that goes on and has come to some phase: its polls
with their answers, its builds, all of its exchanges, and the daemon as it is now. -/
inductive Served (d₀ : Daemon) :
    Phase → List (List Exchange × Bool) → List (List Exchange) → List Exchange → Daemon → Prop
  | built {buildName : String} {update recipe : List Exchange} {path : Path} :
    Daemon.Refreshed d₀ buildName update recipe path →
    Served d₀ .resting [] [update ++ recipe] (update ++ recipe) (d₀.withBinary path)
  | called {polls : List (List Exchange × Bool)} {builds : List (List Exchange)}
      {own call : List Exchange} {d : Daemon} {p : ManagedProcess} :
    Served d₀ .resting polls builds own d → Revived d call p →
    Served d₀ .called polls builds (own ++ call) (d.withProcess p)
  | reported {polls : List (List Exchange × Bool)} {builds : List (List Exchange)}
      {own query : List Exchange} {d : Daemon} {running : Bool} {p : ManagedProcess} :
    Served d₀ .called polls builds own d → Asked d.process query running p →
    Served d₀ .reported polls builds (own ++ query) (d.withProcess p)
  | unchanged {polls : List (List Exchange × Bool)} {builds : List (List Exchange)}
      {own poll : List Exchange} {d : Daemon} :
    Served d₀ .reported polls builds own d →
    Action.Runs d.hasUpstreamChange.attempt poll (.ok false) →
    Served d₀ (.polled false) (polls ++ [(poll, false)]) builds (own ++ poll) d
  | rebuilt {polls : List (List Exchange × Bool)} {builds : List (List Exchange)}
      {own poll update recipe : List Exchange} {d : Daemon} {buildName : String} {path : Path} :
    Served d₀ .reported polls builds own d →
    Action.Runs d.hasUpstreamChange.attempt poll (.ok true) →
    Daemon.Refreshed d buildName update recipe path →
    Served d₀ (.polled true) (polls ++ [(poll, true)]) (builds ++ [update ++ recipe])
      (own ++ (poll ++ (update ++ recipe))) (d.withBinary path)
  | rested {polls : List (List Exchange × Bool)} {builds : List (List Exchange)}
      {own stop : List Exchange} {d d' : Daemon} {changed : Bool} :
    Served d₀ (.polled changed) polls builds own d → StopTurn d changed stop d' →
    Served d₀ .resting polls builds (own ++ stop) d'

variable {d₀ d : Daemon} {phase : Phase} {polls : List (List Exchange × Bool)}
variable {builds : List (List Exchange)} {own : List Exchange} {maxChecks : Nat}

namespace Served

/-- Nothing but the process and the known binary changes, and there is a binary. -/
theorem same (h : Served d₀ phase polls builds own d) :
    d = { d₀ with process := d.process, executable := d.executable } ∧
      d.executable.isSome = true ∧ d.process.stopPolicy = d₀.process.stopPolicy := by
  induction h with
  | built _ => exact ⟨rfl, rfl, rfl⟩
  | @called _ _ _ call d p _ hrevived ih =>
    obtain ⟨hsame, hbinary, hpolicy⟩ := ih
    refine ⟨by rw [hsame]; rfl, hbinary, ?_⟩
    rw [← hpolicy]
    cases hrevived with
    | running hasked => exact hasked.keepsToChild.stopPolicy_eq
    | started hasked _ hstarted hagain =>
      have hkeeps := hstarted.keepsToChild.append hagain.keepsToChild
      exact (hasked.keepsToChild.append hkeeps).stopPolicy_eq
  | reported _ hasked ih =>
    obtain ⟨hsame, hbinary, hpolicy⟩ := ih
    exact ⟨by rw [hsame]; rfl, hbinary, hasked.keepsToChild.stopPolicy_eq.trans hpolicy⟩
  | unchanged _ _ ih => exact ih
  | rebuilt _ _ _ ih =>
    obtain ⟨hsame, -, hpolicy⟩ := ih
    exact ⟨by rw [hsame]; rfl, rfl, hpolicy⟩
  | rested _ hturn ih =>
    obtain ⟨hsame, hbinary, hpolicy⟩ := ih
    cases hturn with
    | kept _ => exact ⟨hsame, hbinary, hpolicy⟩
    | stopped _ hstopped =>
      exact ⟨by rw [hsame]; rfl, hbinary, hstopped.keepsToChild.stopPolicy_eq.trans hpolicy⟩

/-- The sources were built at first, and after each poll that has found a change. -/
theorem length_builds (h : Served d₀ phase polls builds own d) :
    builds.length = 1 + (polls.map Prod.snd).count true := by
  induction h with
  | built _ => rfl
  | called _ _ ih => exact ih
  | reported _ _ ih => exact ih
  | unchanged _ _ ih => simp [ih]
  | rebuilt _ _ _ ih =>
    simp only [List.length_append, List.length_singleton, List.map_append, List.count_append, ih]
    simp
    omega
  | rested _ _ ih => exact ih

end Served

/-! ## The ledger -/

/-- How many children have been stopped in a phase, and whether there is one now, after polls with
these answers. -/
def Phase.balance (restarts : Bool → Bool) (answers : List Bool) : Phase → Nat × Bool
  | .resting => (answers.countP restarts, answers.getLast?.any fun changed => !restarts changed)
  | .called | .reported => (answers.countP restarts, true)
  | .polled _ => (answers.dropLast.countP restarts, true)

/-- What is done to one child in its time. -/
def service (pid : Nat) : List Deed := [.started pid, .signalled pid .terminate]

/-- The children of a daemon so far: those that were stopped have been served, the present one runs,
and nothing else was done to processes. -/
structure Ledger (restarts : Bool → Bool) (phase : Phase) (answers : List Bool)
    (own : List Exchange) (p : ManagedProcess) : Prop where
  held_eq : held none own = p.child
  running : ∀ pid, p.child = some pid → Running p own pid
  isSome_child : p.child.isSome = (phase.balance restarts answers).2
  deeds_eq : ∃ pids : List Nat, pids.length = (phase.balance restarts answers).1 ∧
    deeds own = pids.flatMap service ++ p.child.toList.map Deed.started
  last_eq : ∀ changed, phase = .polled changed → answers.getLast? = some changed

namespace Ledger

variable {restarts : Bool → Bool} {answers : List Bool} {p q : ManagedProcess}
variable {turn : List Exchange}

/-- A daemon that has nothing to stop has rested. -/
theorem running_of_balance (h : Ledger restarts phase answers own p)
    (hbalance : (phase.balance restarts answers).2 = true) : ∃ pid, Running p own pid := by
  have hsome := h.isSome_child
  rw [hbalance] at hsome
  obtain ⟨pid, hpid⟩ := Option.isSome_iff_exists.mp hsome
  exact ⟨pid, h.running pid hpid⟩

/-- A daemon that rests holds a child that runs, or none. -/
theorem running_or_idle (h : Ledger restarts phase answers own p) :
    (∃ pid, Running p own pid) ∨ p.child = none := by
  cases hchild : p.child with
  | none => exact .inr rfl
  | some pid => exact .inl ⟨pid, h.running pid hchild⟩

/-- A turn that leaves the child running and does nothing to processes leads to a phase with the
same balance. -/
theorem of_running {phase' : Phase} {answers' : List Bool} {pid : Nat}
    (h : Ledger restarts phase answers own p) (hrunning : Running p own pid)
    (hstill : Running q (own ++ turn) pid) (hdeeds : deeds turn = [])
    (hbalance : phase'.balance restarts answers' = ((phase.balance restarts answers).1, true))
    (hlast : ∀ changed, phase' = .polled changed → answers'.getLast? = some changed) :
    Ledger restarts phase' answers' (own ++ turn) q := by
  obtain ⟨pids, hlength, hpids⟩ := h.deeds_eq
  refine ⟨hstill.held_eq.trans hstill.child_eq.symm, fun pid' hpid' => ?_, ?_,
    ⟨pids, ?_, ?_⟩, hlast⟩
  · obtain rfl : pid = pid' := Option.some.inj (hstill.child_eq.symm.trans hpid')
    exact hstill
  · rw [hstill.child_eq, hbalance]
    rfl
  · rw [hlength, hbalance]
  · rw [deeds_append, hdeeds, List.append_nil, hpids, hrunning.child_eq, hstill.child_eq]

/-- Before anything is started, nothing has been stopped. -/
theorem opened (hidle : p.child = none) (hfree : ∀ e ∈ own, e.request.aboutProcess = false) :
    Ledger restarts .resting [] own p := by
  have hkeeps : KeepsToChild p own p := .of_processFree hfree
  have hheld := hkeeps.child_eq
  rw [hidle] at hheld
  refine ⟨hheld.symm.trans hidle.symm, fun pid hpid => ?_, by rw [hidle]; rfl, ⟨[], rfl, ?_⟩, nofun⟩
  · rw [hidle] at hpid
    cases hpid
  · rw [deeds_eq_nil_of_processFree hfree, hidle]
    rfl

/-- A daemon that rests without a child is given one. -/
theorem of_started {pid : Nat} (h : Ledger restarts .resting answers own p)
    (hidle : p.child = none) (hrunning : Running q (own ++ turn) pid)
    (hdeeds : deeds turn = [.started pid]) : Ledger restarts .called answers (own ++ turn) q := by
  obtain ⟨pids, hlength, hpids⟩ := h.deeds_eq
  refine ⟨hrunning.held_eq.trans hrunning.child_eq.symm, fun pid' hpid' => ?_, ?_,
    ⟨pids, hlength, ?_⟩, nofun⟩
  · obtain rfl : pid = pid' := Option.some.inj (hrunning.child_eq.symm.trans hpid')
    exact hrunning
  · rw [hrunning.child_eq]
    rfl
  · rw [deeds_append, hdeeds, hpids, hidle, hrunning.child_eq]
    simp

/-- A poll, and what is built after it, leave the child as it is. -/
theorem of_polled (h : Ledger restarts .reported answers own p) (changed : Bool)
    (hfree : ∀ e ∈ turn, e.request.aboutProcess = false) :
    Ledger restarts (.polled changed) (answers ++ [changed]) (own ++ turn) p := by
  obtain ⟨pid, hrunning⟩ := h.running_of_balance rfl
  refine h.of_running hrunning (hrunning.append_of_processFree hfree)
    (deeds_eq_nil_of_processFree hfree) ?_ ?_
  · simp [Phase.balance]
  · simp

/-- The last of the answers counts if its daemon is restarted after it. -/
theorem countP_eq {changed : Bool} (h : Ledger restarts (.polled changed) answers own p) :
    answers.countP restarts =
      answers.dropLast.countP restarts + if restarts changed then 1 else 0 := by
  obtain ⟨init, rfl⟩ := List.getLast?_eq_some_iff.mp (h.last_eq changed rfl)
  rw [List.dropLast_concat, List.countP_append, List.countP_singleton]

/-- A daemon that is not restarted rests with the child that it has. -/
theorem of_kept {changed : Bool} (h : Ledger restarts (.polled changed) answers own p)
    (hkept : restarts changed = false) : Ledger restarts .resting answers (own ++ []) p := by
  obtain ⟨pid, hrunning⟩ := h.running_of_balance rfl
  have hnothing : own ++ [] = own := List.append_nil own
  refine h.of_running hrunning (by rw [hnothing]; exact hrunning) rfl ?_ nofun
  simp [Phase.balance, h.countP_eq, h.last_eq changed rfl, hkept]

/-- A daemon that is restarted rests without a child, and one more has been served. -/
theorem of_stopped {changed : Bool} (h : Ledger restarts (.polled changed) answers own p)
    (hrestarts : restarts changed = true) (hstopped : Stopped p turn (.ok ()) q)
    (hled : LedBy maxChecks (own ++ turn)) : Ledger restarts .resting answers (own ++ turn) q := by
  obtain ⟨pid, hrunning⟩ := h.running_of_balance rfl
  obtain ⟨pids, hlength, hpids⟩ := h.deeds_eq
  have hnone : q.child = none := hstopped.child_eq_none
  have hheld := hstopped.keepsToChild.child_eq
  refine ⟨?_, fun pid' hpid' => ?_, ?_, ⟨pids ++ [pid], ?_, ?_⟩, nofun⟩
  · rw [held_append, hrunning.held_eq, ← hrunning.child_eq, ← hheld]
  · rw [hnone] at hpid'
    cases hpid'
  · simp [Phase.balance, hnone, h.last_eq changed rfl, hrestarts]
  · simp only [Phase.balance] at hlength ⊢
    simp [hlength, h.countP_eq, hrestarts]
  · rw [deeds_append, hrunning.deeds_stop hstopped hled, hpids, hnone, hrunning.child_eq]
    simp [service]

end Ledger

/-- Calling up a daemon leaves it with a child that runs: the one that it had, or one that was
started where there was none. -/
theorem Revived.leaves_running {p : ManagedProcess} {call : List Exchange} (h : Revived d call p)
    (hled : LedBy maxChecks (own ++ call)) :
    (∀ pid, Running d.process own pid → Running p (own ++ call) pid ∧ deeds call = []) ∧
    (d.process.child = none → held none own = none →
      ∃ pid, Running p (own ++ call) pid ∧ deeds call = [.started pid]) := by
  cases h with
  | running hasked =>
    refine ⟨fun pid hrunning => ?_, fun hnone _ => ?_⟩
    · obtain ⟨-, -, hstill⟩ := hrunning.asked hasked hled
      rw [← hasked.eq_of_running] at hstill
      exact ⟨hstill, hasked.deeds_eq_nil⟩
    · have hsome := hasked.isSome_child
      rw [hasked.eq_of_running, hnone] at hsome
      cases hsome
  | @started query start again running path _ q _ hasked _ hstarted hagain =>
    refine ⟨fun pid hrunning => ?_, fun hnone hheld => ?_⟩
    · rw [← List.append_assoc] at hled
      obtain ⟨hfalse, -⟩ := hrunning.asked hasked hled.left
      cases hfalse
    · have hidle : query = [] ∧ held none (own ++ query) = none := by
        cases hasked with
        | idle _ => exact ⟨rfl, by rwa [List.append_nil]⟩
        | ended hchild =>
          rw [hnone] at hchild
          cases hchild
      obtain ⟨rfl, hheld⟩ := hidle
      rw [List.append_nil] at hheld
      rw [List.nil_append, ← List.append_assoc] at hled
      obtain ⟨pid, hrunning, hdeeds⟩ := running_of_started hstarted hasked.child_eq_none hheld
      obtain ⟨-, rfl, hstill⟩ := hrunning.asked hagain hled
      rw [List.nil_append, deeds_append, hdeeds, hagain.deeds_eq_nil, ← List.append_assoc]
      exact ⟨pid, hstill, rfl⟩

/-- The ledger of a daemon whose children are obedient is exact in every phase. -/
theorem Served.ledger (h : Served d₀ phase polls builds own d) (hfresh : d₀.process.child = none)
    (hled : LedBy maxChecks own) :
    Ledger d₀.restart.restarts phase (polls.map Prod.snd) own d.process := by
  induction h with
  | built hrefreshed => exact .opened hfresh (processFree_of_refreshed hrefreshed)
  | @called polls builds own call d p _ hrevived ih =>
    have hledger := ih hled.left
    obtain ⟨hkept, hstart⟩ := hrevived.leaves_running hled
    rcases hledger.running_or_idle with ⟨pid, hrunning⟩ | hidle
    · obtain ⟨hstill, hdeeds⟩ := hkept pid hrunning
      exact hledger.of_running hrunning hstill hdeeds rfl nofun
    · obtain ⟨pid, hrunning, hdeeds⟩ := hstart hidle (hledger.held_eq.trans hidle)
      exact hledger.of_started hidle hrunning hdeeds
  | @reported _ _ own query d running p _ hasked ih =>
    have hledger := ih hled.left
    obtain ⟨pid, hrunning⟩ := hledger.running_of_balance rfl
    obtain ⟨-, rfl, hstill⟩ := hrunning.asked hasked hled
    exact hledger.of_running hrunning hstill hasked.deeds_eq_nil rfl nofun
  | unchanged _ hpoll ih =>
    rw [List.map_append]
    exact (ih hled.left).of_polled false (processFree_of_poll hpoll)
  | rebuilt _ hpoll hrefreshed ih =>
    rw [List.map_append]
    refine (ih hled.left).of_polled true (List.forall_mem_append.mpr ⟨?_, ?_⟩)
    · exact processFree_of_poll hpoll
    · exact processFree_of_refreshed hrefreshed
  | @rested polls builds own stop d d' changed hserved hturn ih =>
    have hledger := ih hled.left
    have hpolicy : d.restart = d₀.restart := by rw [hserved.same.1]
    cases hturn with
    | kept hkept =>
      rw [hpolicy] at hkept
      exact hledger.of_kept hkept
    | stopped hrestarts hstopped =>
      rw [hpolicy] at hrestarts
      exact hledger.of_stopped hrestarts hstopped hled

/-- A stop where nothing is held does nothing. -/
theorem stopped_of_child_eq_none {p q : ManagedProcess} {stop : List Exchange}
    {outcome : Except Fault Unit} (h : Stopped p stop outcome q) (hnone : p.child = none) :
    stop = [] ∧ outcome = .ok () ∧ q = p := by
  have hquery : ∀ {first : List Exchange} {running : Bool} {r : ManagedProcess},
      Asked p first running r → first = [] ∧ running = false ∧ r = p := by
    intro first running r hasked
    cases hasked with
    | idle _ => exact ⟨rfl, rfl, rfl⟩
    | ended hchild | kept hchild _ =>
      rw [hnone] at hchild
      cases hchild
  cases h with
  | idle hasked =>
    obtain ⟨rfl, -, rfl⟩ := hquery hasked
    exact ⟨rfl, rfl, rfl⟩
  | refused hfirst _ | ended hfirst _ _ _ | timedOut hfirst _ _ _ =>
    obtain ⟨-, hfalse, -⟩ := hquery hfirst
    cases hfalse

/-- When a daemon that has been polled is stopped for good, every child that it ever had has been
served: one for each cycle after which it was stopped, but for the last one, and one more. -/
theorem Ledger.closed {restarts : Bool → Bool} {answers : List Bool} {p q : ManagedProcess}
    {closing : List Exchange} (h : Ledger restarts .resting answers own p) (hne : answers ≠ [])
    (hstopped : Stopped p closing (.ok ()) q) (hled : LedBy maxChecks (own ++ closing)) :
    ∃ pids : List Nat, pids.length = 1 + answers.dropLast.countP restarts ∧
      deeds (own ++ closing) = pids.flatMap service := by
  obtain ⟨init, hinit⟩ := List.getLast?_eq_some_iff.mp (List.getLast?_eq_some_getLast hne)
  obtain ⟨pids, hlength, hpids⟩ := h.deeds_eq
  have hsome := h.isSome_child
  rw [hinit] at hlength hsome ⊢
  simp only [Phase.balance, List.countP_append, List.countP_singleton, List.getLast?_concat,
    List.dropLast_concat] at hlength hsome ⊢
  rw [deeds_append, hpids]
  cases hchild : p.child with
  | none =>
    obtain ⟨rfl, -, -⟩ := stopped_of_child_eq_none hstopped hchild
    have hlast : restarts (answers.getLast hne) = true := by
      rw [hchild] at hsome
      simpa using hsome.symm
    rw [if_pos hlast] at hlength
    exact ⟨pids, by omega, by simp [deeds]⟩
  | some pid =>
    have hlast : restarts (answers.getLast hne) = false := by
      rw [hchild] at hsome
      simpa using hsome.symm
    rw [hlast] at hlength
    refine ⟨pids ++ [pid], by simp at hlength ⊢; omega, ?_⟩
    rw [(h.running pid hchild).deeds_stop hstopped hled]
    simp [service]

end Supervisor

end DaemonKeeper
