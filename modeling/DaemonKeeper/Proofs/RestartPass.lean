import DaemonKeeper.Proofs.BuildPlan
import DaemonKeeper.Proofs.RunLogs
import DaemonKeeper.Proofs.StopSignals
set_option autoImplicit false

/-!
# The restart pass and the daemons it stops (SPEC §3.6)

At the end of a cycle the daemons that the restart policy selects are stopped, in order, up to the
first that does not end in time (SPEC §3.6).  Those before it that are selected have ended: each was
told to and then seen to, unless the first look at it finds that it is gone.  The one that does not
end keeps its child, and nobody else is touched.  The one thing that could send a signal elsewhere
is an exit between the first two queries of a stop.
-/

namespace DaemonKeeper

/-! ## Signals to some children -/

/-- Every signal asks a child of some kind to end, directly after two queries that have not seen it
end. -/
def TerminatesOnly (Target : Nat → Prop) (trace : List Exchange) : Prop :=
  ∀ before target signal reply after,
    trace = before ++ ⟨.signal target signal, reply⟩ :: after →
    signal = .terminate ∧ ∃ pid : Nat, target = pid ∧ Target pid ∧ ∃ earlier first second,
      first ≠ ChildStatus.exited ∧ second ≠ ChildStatus.exited ∧
      before = earlier ++ [⟨.status pid, first⟩, ⟨.status pid, second⟩]

namespace TerminatesOnly

variable {Target Target' : Nat → Prop} {trace rest : List Exchange}

theorem of_signals_eq_nil (h : signals trace = []) : TerminatesOnly Target trace := by
  rintro before target signal reply after rfl
  rw [signals_append] at h
  cases (List.append_eq_nil_iff.mp h).2

theorem mono (h : TerminatesOnly Target trace) (hsub : ∀ pid, Target pid → Target' pid) :
    TerminatesOnly Target' trace := by
  intro before target signal reply after htrace
  obtain ⟨hterminate, pid, htarget, hpid, hqueries⟩ :=
    h before target signal reply after htrace
  exact ⟨hterminate, pid, htarget, hsub pid hpid, hqueries⟩

theorem append (h : TerminatesOnly Target trace) (h' : TerminatesOnly Target rest) :
    TerminatesOnly Target (trace ++ rest) := by
  intro before target signal reply after htrace
  rcases append_eq_append_cons_iff.mp htrace with ⟨middle, rfl, -⟩ | ⟨middle, rfl, rfl⟩
  · exact h before target signal reply middle rfl
  · obtain ⟨hterminate, pid, htarget, hpid, earlier, first, second, hfirst, hsecond, rfl⟩ :=
      h' middle target signal reply after rfl
    refine ⟨hterminate, pid, htarget, hpid, trace ++ earlier, first, second, hfirst, hsecond, ?_⟩
    rw [List.append_assoc]

theorem flatten {turns : List (List Exchange)} (h : ∀ turn ∈ turns, TerminatesOnly Target turn) :
    TerminatesOnly Target turns.flatten := by
  induction turns with
  | nil => exact .of_signals_eq_nil rfl
  | cons turn turns ih =>
    obtain ⟨hturn, hrest⟩ := List.forall_mem_cons.mp h
    exact hturn.append (ih hrest)

/-- Two queries and a signal. -/
theorem of_queries {pid : Nat} {first second : ChildStatus} {answer : Except IoFault Unit}
    (hfirst : first ≠ .exited) (hsecond : second ≠ .exited) (hpid : Target pid) :
    TerminatesOnly Target
      [⟨.status pid, first⟩, ⟨.status pid, second⟩, ⟨.signal pid .terminate, answer⟩] := by
  intro before target signal reply after htrace
  -- Only the third exchange is a signal.
  rcases before with _ | ⟨e₁, _ | ⟨e₂, _ | ⟨e₃, before⟩⟩⟩
  · cases htrace
  · cases htrace
  · cases htrace
    exact ⟨rfl, pid, rfl, hpid, [], first, second, hfirst, hsecond, rfl⟩
  · simp at htrace

end TerminatesOnly

/-! ## One stop -/

namespace ManagedProcess

variable {p p' q r : ManagedProcess} {trace first second rest : List Exchange}
variable {outcome : Except Fault Unit}

theorem Asked.eq_withChild {running : Bool} (h : Asked p trace running p') :
    p' = { p with child := p'.child } := by
  cases h <;> rfl

theorem Awaited.eq_withChild {remaining checks total : Nat}
    (h : Awaited remaining checks p trace total p') : p' = { p with child := p'.child } := by
  induction h with
  | exhausted => rfl
  | ended hasked => exact hasked.eq_withChild
  | slept hasked _ ih => rwa [hasked.eq_of_running] at ih

/-- Waiting for a child that does not end changes nothing. -/
theorem Awaited.eq_of_held {remaining checks total : Nat}
    (h : Awaited remaining checks p trace total p') (hheld : p'.child.isSome) : p' = p := by
  induction h with
  | exhausted => rfl
  | ended hasked =>
    rw [hasked.child_eq_none] at hheld
    cases hheld
  | slept hasked _ ih => exact (ih hheld).trans hasked.eq_of_running

/-- A stop may let the child go, and changes nothing else. -/
theorem Stopped.eq_withChild (h : Stopped p trace outcome p') :
    p' = { p with child := p'.child } := by
  cases h with
  | idle hasked => exact hasked.eq_withChild
  | refused hfirst hsecond =>
    rw [hfirst.eq_of_running] at hsecond
    exact hsecond.eq_withChild
  | @ended _ _ _ _ _ _ q r s t hfirst hsecond hwait hlast
  | @timedOut _ _ _ _ _ _ q r s t hfirst hsecond hwait hlast =>
    rw [hfirst.eq_of_running] at hsecond
    rw [hlast.eq_withChild, hwait.eq_withChild, hsecond.eq_withChild]

/-- Unless the child ends between them, the second query of a stop says that it runs as well. -/
theorem Asked.again {running : Bool} (hfirst : Asked p first true q)
    (hsecond : Asked q second running r)
    (hexit : ∀ pid, ¬ EndsBetweenQueries pid (first ++ (second ++ rest))) : running = true := by
  cases hsecond with
  | kept _ _ => rfl
  | idle hnone =>
    have hsome := hfirst.isSome_child
    rw [hnone] at hsome
    cases hsome
  | @ended pid hchild =>
    rw [hfirst.eq_of_running] at hchild
    obtain ⟨reply, rfl, hreply, -⟩ := hfirst.of_child hchild
    exact absurd ⟨reply, rest, hreply.mp rfl, rfl⟩ (hexit pid)

/-- Then a stop that fails has changed nothing, and the child is still held. -/
theorem Stopped.eq_of_error {fault : Fault} (h : Stopped p trace (.error fault) p')
    (hexit : ∀ pid, ¬ EndsBetweenQueries pid trace) : p' = p ∧ p.child.isSome := by
  cases h with
  | refused hfirst hsecond =>
    obtain rfl := hfirst.again hsecond hexit
    obtain rfl := hfirst.eq_of_running
    obtain rfl := hsecond.eq_of_running
    exact ⟨rfl, hsecond.isSome_child⟩
  | timedOut hfirst hsecond hwait hlast =>
    obtain rfl := hfirst.again hsecond hexit
    obtain rfl := hfirst.eq_of_running
    obtain rfl := hsecond.eq_of_running
    obtain rfl := hlast.eq_of_running
    obtain rfl := hwait.eq_of_held hlast.isSome_child
    exact ⟨rfl, hlast.isSome_child⟩

/-- A stop that succeeds has let the child go, and changed nothing else. -/
theorem Stopped.eq_of_ok (h : Stopped p trace (.ok ()) p') : p' = { p with child := none } := by
  rw [h.eq_withChild, h.child_eq_none]

/-- Where nothing is held nothing is asked. -/
theorem Stopped.eq_nil (hnone : p.child = none) (h : Stopped p trace outcome p') : trace = [] := by
  have hnever {first q} : ¬ Asked p first true q := by
    intro hasked
    have hsome := hasked.isSome_child
    rw [hasked.eq_of_running, hnone] at hsome
    cases hsome
  cases h with
  | idle hasked =>
    cases hasked with
    | idle _ => rfl
    | ended hchild =>
      rw [hnone] at hchild
      cases hchild
  | refused hfirst _ => exact absurd hfirst hnever
  | ended hfirst _ _ _ => exact absurd hfirst hnever
  | timedOut hfirst _ _ _ => exact absurd hfirst hnever

/-- The one that a stop signals is the child. -/
theorem Stopped.terminatesOnly (h : Stopped p trace outcome p')
    (hexit : ∀ pid, ¬ EndsBetweenQueries pid trace) :
    TerminatesOnly (fun pid => p.child = some pid) trace := by
  obtain hnone | ⟨pid, hchild⟩ := Option.eq_none_or_eq_some p.child
  · rw [h.eq_nil hnone]
    exact .of_signals_eq_nil rfl
  rcases h.cases_of_child hchild with rfl | ⟨first, second, reply, rest, hfirst, rfl, hrest⟩
  · exact .of_signals_eq_nil rfl
  · have hsecond : second ≠ .exited := by
      rintro rfl
      exact hexit pid ⟨first, _, hfirst, rfl⟩
    rw [if_neg hsecond]
    exact (TerminatesOnly.of_queries hfirst hsecond hchild).append (.of_signals_eq_nil hrest)

/-! ## Stops that succeed -/

/-- The child was seen to have ended, by the first query, or by one of those after it was signalled:
there is one before each sleep that the policy allows, and one after the last. -/
inductive SeenToEnd (policy : StopPolicy) (pid : Nat) : List Exchange → Prop
  | gone : SeenToEnd policy pid [⟨.status pid, .exited⟩]
  | signalled {first second : ChildStatus} {n : Nat} {watch : List Exchange} :
    first ≠ .exited → second ≠ .exited → n ≤ policy.maxChecks →
    Watched pid policy.pollInterval n watch →
    SeenToEnd policy pid (⟨.status pid, first⟩ :: ⟨.status pid, second⟩ ::
      ⟨.signal pid .terminate, .ok ()⟩ :: (watch ++ [⟨.status pid, .exited⟩]))

/-- A wait after which nothing is held has seen the child end. -/
theorem Awaited.seenToEnd {remaining checks total pid : Nat} {last : List Exchange}
    (hchild : p.child = some pid) (hwait : Awaited remaining checks p trace total q)
    (hlast : Asked q last false r) :
    ∃ n watch, n ≤ remaining ∧ Watched pid p.stopPolicy.pollInterval n watch ∧
      trace ++ last = watch ++ [⟨.status pid, .exited⟩] := by
  -- A query that says that nothing runs, where the child was held until then, has seen its end.
  have hended : ∀ {p q : ManagedProcess} {query : List Exchange}, p.child = some pid →
      Asked p query false q → query = [⟨.status pid, .exited⟩] := by
    intro p q query hchild hasked
    obtain ⟨reply, rfl, hreply, -⟩ := hasked.of_child hchild
    obtain rfl : reply = .exited := by simpa using hreply
    rfl
  induction hwait with
  | exhausted => exact ⟨0, [], Nat.zero_le _, .nil, hended hchild hlast⟩
  | ended hasked =>
    refine ⟨0, [], Nat.zero_le _, .nil, ?_⟩
    cases hlast with
    | idle _ => rw [List.append_nil, hended hchild hasked, List.nil_append]
    | ended hheld =>
      rw [hasked.child_eq_none] at hheld
      cases hheld
  | @slept remaining checks total p q s first rest hasked _ ih =>
    obtain ⟨reply, hreply, rfl, rfl⟩ := hasked.running_of_child hchild
    obtain ⟨n, watch, hn, hwatched, htrace⟩ := ih hchild hlast
    refine ⟨n + 1, _, Nat.succ_le_succ hn, .cons hreply hwatched, ?_⟩
    exact congrArg (⟨.status pid, reply⟩ :: ⟨.sleep q.stopPolicy.pollInterval, ()⟩ :: ·) htrace

/-- So has a stop that succeeds, unless the child ends between its first two queries. -/
theorem Stopped.seenToEnd {pid : Nat} (hchild : p.child = some pid)
    (h : Stopped p trace (.ok ()) p') (hexit : ∀ pid, ¬ EndsBetweenQueries pid trace) :
    SeenToEnd p.stopPolicy pid trace := by
  cases h with
  | idle hasked =>
    obtain ⟨reply, rfl, hreply, -⟩ := hasked.of_child hchild
    obtain rfl : reply = .exited := by simpa using hreply
    exact .gone
  | ended hfirst hsecond hwait hlast =>
    obtain rfl := hfirst.again hsecond hexit
    obtain ⟨first, hfirst', rfl, rfl⟩ := hfirst.running_of_child hchild
    obtain ⟨second, hsecond', rfl, rfl⟩ := hsecond.running_of_child hchild
    obtain ⟨n, watch, hn, hwatched, htrace⟩ := hwait.seenToEnd hchild hlast
    rename_i r _
    have htold : r.toldPid = pid := by rw [toldPid_eq, hchild, told]
    rw [htrace, htold]
    exact .signalled hfirst' hsecond' hn hwatched

end ManagedProcess

/-! ## The selected daemons -/

namespace Daemon

/-- The same daemon after its child was let go. -/
def released (d : Daemon) : Daemon := d.withProcess { d.process with child := none }

end Daemon

namespace Supervisor

variable {rebuilt : List Bool} {i : Nat} {d : Daemon} {ds ds' : List Daemon} {log : Log}
variable {s s' : Supervisor} {trace first rest : List Exchange} {outcome : Except Fault Unit}

/-- The restart policy selects a daemon if it has a flag and is restarted in every cycle, or has
been rebuilt in this one. -/
def Selected (rebuilt : List Bool) (i : Nat) (d : Daemon) : Prop :=
  ∃ flag, rebuilt[i]? = some flag ∧ (d.restart = .everyCycle ∨ d.restart = .onRebuild ∧ flag = true)

theorem selected_iff : Selected rebuilt i d ↔ (rebuilt[i]?).any d.restart.restarts = true := by
  unfold Selected
  cases rebuilt[i]? with
  | none => simp
  | some flag => cases d.restart <;> simp [RestartPolicy.restarts]

instance : Decidable (Selected rebuilt i d) := decidable_of_iff _ selected_iff.symm

/-- What the pass makes of a daemon that it comes past. -/
def settle (rebuilt : List Bool) (i : Nat) (d : Daemon) : Daemon :=
  if Selected rebuilt i d then d.released else d

/-- The child of a selected daemon. -/
def SelectedChild (rebuilt : List Bool) (ds : List Daemon) (pid : Nat) : Prop :=
  ∃ i d, ds[i]? = some d ∧ Selected rebuilt i d ∧ d.process.child = some pid

/-- What the pass exchanges for a daemon that it comes past: if the daemon is selected and holds a
child, then the child is seen to end, and otherwise there is nothing. -/
structure PassedBy (rebuilt : List Bool) (i : Nat) (d : Daemon) (turn : List Exchange) : Prop where
  seenToEnd : Selected rebuilt i d → ∀ pid, d.process.child = some pid →
    ManagedProcess.SeenToEnd d.process.stopPolicy pid turn
  spared : ¬ (Selected rebuilt i d ∧ d.process.child.isSome) → turn = []

/-- No child ends between the first two queries of a stop of one of the daemons. -/
def NoExitBetweenQueries (ds : List Daemon) (trace : List Exchange) : Prop :=
  ∀ d ∈ ds, ∀ before turn after outcome d', trace = before ++ (turn ++ after) →
    Action.Runs d.stop turn (outcome, d') → ∀ pid, ¬ ManagedProcess.EndsBetweenQueries pid turn

/-- So none does in one of the turns of which a trace is made. -/
theorem NoExitBetweenQueries.of_mem {turns : List (List Exchange)} {turn last : List Exchange}
    {d' : Daemon} (h : NoExitBetweenQueries ds (turns.flatten ++ last)) (hd : d ∈ ds)
    (hturn : turn ∈ turns) (hruns : Action.Runs d.stop turn (outcome, d')) :
    ∀ pid, ¬ ManagedProcess.EndsBetweenQueries pid turn := by
  obtain ⟨before, after, rfl⟩ := List.append_of_mem hturn
  refine h d hd before.flatten turn (after.flatten ++ last) outcome d' ?_ hruns
  simp

/-- Nor in the last turn. -/
theorem NoExitBetweenQueries.last {turns : List (List Exchange)} {turn : List Exchange}
    {d' : Daemon} (h : NoExitBetweenQueries ds (turns.flatten ++ turn)) (hd : d ∈ ds)
    (hruns : Action.Runs d.stop turn (outcome, d')) :
    ∀ pid, ¬ ManagedProcess.EndsBetweenQueries pid turn := by
  refine h d hd turns.flatten turn [] outcome d' ?_ hruns
  rw [List.append_nil]

/-! ## The turns of the pass -/

/-- A daemon whose turn succeeds is passed by. -/
theorem passedBy_of_runs_stopStep {turn : List Exchange} {d' : Daemon}
    (h : Action.Runs (stopStep rebuilt i d) turn (.ok (), d'))
    (hexit : ∀ answer e, Action.Runs d.stop turn (answer, e) →
      ∀ pid, ¬ ManagedProcess.EndsBetweenQueries pid turn) :
    d' = settle rebuilt i d ∧ PassedBy rebuilt i d turn ∧
      TerminatesOnly (fun pid => Selected rebuilt i d ∧ d.process.child = some pid) turn := by
  unfold stopStep at h
  by_cases hselected : Selected rebuilt i d
  · rw [if_pos (selected_iff.mp hselected)] at h
    have hexit := hexit _ _ h
    obtain ⟨p, hstopped, rfl⟩ := Daemon.stopped_of_runs_stop h
    refine ⟨?_, ⟨fun _ pid hchild => hstopped.seenToEnd hchild hexit, fun hidle => ?_⟩,
      (hstopped.terminatesOnly hexit).mono fun pid hpid => ⟨hselected, hpid⟩⟩
    · rw [hstopped.eq_of_ok, settle, if_pos hselected]
      rfl
    · refine hstopped.eq_nil (Option.isNone_iff_eq_none.mp ?_)
      cases hchild : d.process.child with
      | none => rfl
      | some pid => exact absurd ⟨hselected, by rw [hchild]; rfl⟩ hidle
  · rw [if_neg (mt selected_iff.mpr hselected)] at h
    obtain ⟨rfl, -, rfl⟩ := Action.runs_pure_pair_iff.mp h
    refine ⟨?_, ⟨fun hyes => absurd hyes hselected, fun _ => rfl⟩, .of_signals_eq_nil rfl⟩
    rw [settle, if_neg hselected]

/-- A daemon whose turn fails is selected and keeps its child. -/
theorem stuck_of_runs_stopStep {turn : List Exchange} {d' : Daemon} {fault : Fault}
    (h : Action.Runs (stopStep rebuilt i d) turn (.error fault, d'))
    (hexit : ∀ answer e, Action.Runs d.stop turn (answer, e) →
      ∀ pid, ¬ ManagedProcess.EndsBetweenQueries pid turn) :
    d' = d ∧ Selected rebuilt i d ∧ d.process.child.isSome ∧
      Action.Runs d.stop turn (.error fault, d) ∧
      TerminatesOnly (fun pid => Selected rebuilt i d ∧ d.process.child = some pid) turn := by
  unfold stopStep at h
  by_cases hselected : Selected rebuilt i d
  · rw [if_pos (selected_iff.mp hselected)] at h
    have hexit := hexit _ _ h
    obtain ⟨p, hstopped, rfl⟩ := Daemon.stopped_of_runs_stop h
    obtain ⟨rfl, hheld⟩ := hstopped.eq_of_error hexit
    exact ⟨rfl, hselected, hheld, h,
      (hstopped.terminatesOnly hexit).mono fun pid hpid => ⟨hselected, hpid⟩⟩
  · rw [if_neg (mt selected_iff.mpr hselected)] at h
    obtain ⟨-, hfault, -⟩ := Action.runs_pure_pair_iff.mp h
    cases hfault

/-- The pass has come past so many daemons, in these turns: each is as the pass leaves it, and
nobody was signalled but the children of those that are selected. -/
structure Swept (rebuilt : List Bool) (count : Nat) (ds ds' : List Daemon)
    (turns : List (List Exchange)) : Prop where
  settled : ∀ i d, i < count → ds[i]? = some d → ds'[i]? = some (settle rebuilt i d)
  passedBy : ∀ i d, i < count → ds[i]? = some d →
    ∃ turn, turns[i]? = some turn ∧ PassedBy rebuilt i d turn
  signals : TerminatesOnly (SelectedChild rebuilt (ds.take count)) turns.flatten

/-- As far as the turns of a pass succeed, the daemons are passed by. -/
theorem swept_of_turns {count : Nat} {last : List Exchange} (hcount : count ≤ ds.length)
    (hturns : ∀ (i : Nat) d, i < count → ds[i]? = some d → ∃ a d', ds'[i]? = some d' ∧
      Action.Runs (stopStep rebuilt i d) (log.own (.daemon i)) (.ok a, d'))
    (hexits : NoExitBetweenQueries ds ((log.turns 0 count).flatten ++ last)) :
    Swept rebuilt count ds ds' (log.turns 0 count) := by
  have hat : ∀ i, i < count → (log.turns 0 count)[i]? = some (log.own (.daemon i)) := by
    intro i hi
    rw [log.getElem?_turns hi, Nat.zero_add]
  have hpassed : ∀ (i : Nat) d, i < count → ds[i]? = some d →
      ds'[i]? = some (settle rebuilt i d) ∧ PassedBy rebuilt i d (log.own (.daemon i)) ∧
      TerminatesOnly (fun pid => Selected rebuilt i d ∧ d.process.child = some pid)
        (log.own (.daemon i)) := by
    intro i d hi hd
    obtain ⟨a, d', hd', hruns⟩ := hturns i d hi hd
    obtain ⟨rfl, hpassed⟩ := passedBy_of_runs_stopStep hruns fun answer e hstop =>
      hexits.of_mem (List.mem_of_getElem? hd) (List.mem_of_getElem? (hat i hi)) hstop
    exact ⟨hd', hpassed⟩
  refine ⟨fun i d hi hd => (hpassed i d hi hd).1,
    fun i d hi hd => ⟨_, hat i hi, (hpassed i d hi hd).2.1⟩, .flatten fun turn hturn => ?_⟩
  obtain ⟨i, hi⟩ := List.mem_iff_getElem?.mp hturn
  have hbound : i < count := by
    rw [← log.length_turns 0 count]
    exact (List.getElem?_eq_some_iff.mp hi).1
  obtain rfl := Option.some.inj ((hat i hbound).symm.trans hi)
  have hd : ds[i]? = some ds[i] := List.getElem?_eq_getElem (Nat.lt_of_lt_of_le hbound hcount)
  refine (hpassed i _ hbound hd).2.2.mono fun pid hpid => ⟨i, ds[i], ?_, hpid⟩
  rw [List.getElem?_take_of_lt hbound, hd]

/-- A pass that succeeds has come past all daemons. -/
theorem swept_of_succeeds {as : List Unit} (h : Tour.Succeeds (stopStep rebuilt) 0 ds log as ds')
    (hexits : NoExitBetweenQueries ds log.trace) :
    Swept rebuilt ds.length ds ds' (log.turns 0 ds.length) := by
  rw [h.trace_eq, ← List.append_nil (log.turns 0 ds.length).flatten] at hexits
  refine swept_of_turns (Nat.le_refl _) (fun i d _ hd => ?_) hexits
  obtain ⟨a, d', -, hd', hruns⟩ := h.turn i d hd
  rw [Nat.zero_add] at hruns
  exact ⟨a, d', hd', hruns⟩

/-- A pass that fails has come past some daemons, is stuck at the next one, and leaves that and the
others as they are. -/
theorem swept_of_fails {fault : Fault} {count : Nat}
    (h : Tour.Fails (stopStep rebuilt) 0 ds log fault count ds')
    (hexits : NoExitBetweenQueries ds log.trace) :
    Swept rebuilt count ds ds' (log.turns 0 count) ∧ (∀ i, count ≤ i → ds'[i]? = ds[i]?) ∧
    ∃ d, ds[count]? = some d ∧ Selected rebuilt count d ∧ d.process.child.isSome ∧
      Action.Runs d.stop (log.own (.daemon count)) (.error fault, d) ∧
      TerminatesOnly (fun pid => Selected rebuilt count d ∧ d.process.child = some pid)
        (log.own (.daemon count)) := by
  obtain ⟨d, d', hd, hd', hruns⟩ := h.failed
  have hcount : count < ds.length := (List.getElem?_eq_some_iff.mp hd).1
  rw [h.trace_eq] at hexits
  rw [Nat.zero_add] at hruns hexits
  obtain ⟨rfl, hstuck⟩ := stuck_of_runs_stopStep hruns
    fun answer e hstop => hexits.last (List.mem_of_getElem? hd) hstop
  refine ⟨swept_of_turns (Nat.le_of_lt hcount) (fun i e hi he => ?_) hexits, fun i hi => ?_, d', hd,
    hstuck⟩
  · obtain ⟨a, e', he', hturn⟩ := h.earlier i e hi he
    rw [Nat.zero_add] at hturn
    exact ⟨a, e', he', hturn⟩
  · rcases Nat.eq_or_lt_of_le hi with rfl | hi
    · rw [hd', hd]
    · exact h.later i hi

/-- If nothing is changed after that, these daemons are settled and the others are as before. -/
theorem Swept.daemons_eq {count : Nat} {turns : List (List Exchange)}
    (h : Swept rebuilt count ds ds' turns) (hcount : count ≤ ds.length)
    (hlater : ∀ i, count ≤ i → ds'[i]? = ds[i]?) :
    ds' = (ds.take count).mapIdx (settle rebuilt) ++ ds.drop count := by
  have hlength : ((ds.take count).mapIdx (settle rebuilt)).length = count := by
    rw [List.length_mapIdx, List.length_take_of_le hcount]
  refine List.ext_getElem? fun i => ?_
  rcases Nat.lt_or_ge i count with hi | hi
  · have hd : ds[i]? = some ds[i] := List.getElem?_eq_getElem (Nat.lt_of_lt_of_le hi hcount)
    rw [List.getElem?_append_left (by rwa [hlength]), List.getElem?_mapIdx,
      List.getElem?_take_of_lt hi, hd]
    exact h.settled i _ hi hd
  · rw [List.getElem?_append_right (by rwa [hlength]), hlength, List.getElem?_drop,
      Nat.add_sub_cancel' hi]
    exact hlater i hi

/-- Nothing but the children that are held is changed. -/
theorem released_settle (rebuilt : List Bool) (i : Nat) (d : Daemon) :
    (settle rebuilt i d).released = d.released := by
  unfold settle
  split <;> rfl

theorem map_released_mapIdx_settle (rebuilt : List Bool) (ds : List Daemon) :
    (ds.mapIdx (settle rebuilt)).map Daemon.released = ds.map Daemon.released := by
  refine List.ext_getElem (by simp) fun i hi hi' => ?_
  simp only [List.getElem_map, List.getElem_mapIdx, released_settle]

/-! ## Main statement -/

/-- The restart pass changes nothing but what the daemons hold, and its trace is that of its turns.

* If it succeeds, every daemon was passed by: a selected one that held a child has ended, as was
  seen in its turn, and was told to unless the first query has seen it already; it holds no child
  any more.  The others are as before, and nothing was exchanged for them.
* If it fails, then with the stop of a selected daemon, whose fault is that of the pass and which
  keeps its child.  Those before it were passed by; those after it are as before, and nothing was
  exchanged for them.

Only the children of selected daemons that the pass has come to are signalled, each directly after
two queries that have not seen it end. -/
theorem restart_pass_stops_selected
    (h : Action.Runs (s.applyRestartPolicy rebuilt) trace (outcome, s'))
    (hexits : NoExitBetweenQueries s.daemons trace) :
    (s' = s.withDaemons s'.daemons ∧
      s'.daemons.map Daemon.released = s.daemons.map Daemon.released) ∧
    (outcome = .ok () → s'.daemons = s.daemons.mapIdx (settle rebuilt) ∧
      TerminatesOnly (SelectedChild rebuilt s.daemons) trace ∧
      ∃ turns : List (List Exchange), trace = turns.flatten ∧
        turns.length = s.daemons.length ∧
        ∀ i d, s.daemons[i]? = some d →
          ∃ turn, turns[i]? = some turn ∧ PassedBy rebuilt i d turn) ∧
    ∀ fault, outcome = .error fault → ∃ (done : List Daemon) (d : Daemon) (left : List Daemon)
        (turns : List (List Exchange)) (turn : List Exchange),
      s.daemons = done ++ d :: left ∧ s'.daemons = done.mapIdx (settle rebuilt) ++ d :: left ∧
      Selected rebuilt done.length d ∧ d.process.child.isSome ∧
      trace = turns.flatten ++ turn ∧ Action.Runs d.stop turn (.error fault, d) ∧
      turns.length = done.length ∧
      (∀ i e, done[i]? = some e → ∃ turn, turns[i]? = some turn ∧ PassedBy rebuilt i e turn) ∧
      TerminatesOnly (SelectedChild rebuilt (done ++ [d])) trace := by
  obtain ⟨log, answers, ds', rfl, htour, rfl, rfl⟩ := tour_of_runs_applyRestartPolicy h
  cases answers with
  | ok as =>
    have hsucceeds := htour.succeeds
    have hswept := swept_of_succeeds hsucceeds hexits
    rw [hsucceeds.trace_eq]
    have hdaemons : ds' = s.daemons.mapIdx (settle rebuilt) := by
      have hwhole := hswept.daemons_eq (Nat.le_refl _) fun i hi => by
        rw [List.getElem?_eq_none hi, List.getElem?_eq_none (by rwa [hsucceeds.length_daemons])]
      rwa [List.take_length, List.drop_length, List.append_nil] at hwhole
    have hsignals := hswept.signals
    rw [List.take_length] at hsignals
    refine ⟨⟨rfl, ?_⟩, fun _ => ⟨hdaemons, hsignals, _, rfl, log.length_turns 0 _, fun i d hd =>
      hswept.passedBy i d (List.getElem?_eq_some_iff.mp hd).1 hd⟩, nofun⟩
    exact (congrArg (List.map Daemon.released) hdaemons).trans (map_released_mapIdx_settle _ _)
  | error cause =>
    obtain ⟨count, hfails⟩ := htour.fails
    obtain ⟨hswept, hlater, d, hd, hselected, hheld, hstop, hlast⟩ := swept_of_fails hfails hexits
    rw [hfails.trace_eq, Nat.zero_add]
    have hcount : count < s.daemons.length := (List.getElem?_eq_some_iff.mp hd).1
    have hlength : (s.daemons.take count).length = count :=
      List.length_take_of_le (Nat.le_of_lt hcount)
    have hdrop : s.daemons.drop count = d :: s.daemons.drop (count + 1) := by
      rw [List.drop_eq_getElem_cons hcount, (List.getElem?_eq_some_iff.mp hd).2]
    have hsplit : s.daemons = s.daemons.take count ++ d :: s.daemons.drop (count + 1) := by
      rw [← hdrop, List.take_append_drop]
    have hdaemons := hswept.daemons_eq (Nat.le_of_lt hcount) hlater
    rw [hdrop] at hdaemons
    refine ⟨⟨rfl, ?_⟩, nofun, ?_⟩
    · refine (congrArg (List.map Daemon.released) hdaemons).trans ?_
      rw [List.map_append, map_released_mapIdx_settle, ← List.map_append, ← hsplit]
    · rintro fault hfault
      obtain rfl := Except.error.inj hfault
      refine ⟨_, d, _, _, _, hsplit, hdaemons, ?_, hheld, rfl, hstop, ?_, ?_, ?_⟩
      · rwa [hlength]
      · rw [hlength, log.length_turns]
      · intro i e he
        have hi : i < count := hlength ▸ (List.getElem?_eq_some_iff.mp he).1
        rw [List.getElem?_take_of_lt hi] at he
        exact hswept.passedBy i e hi he
      · refine (hswept.signals.mono ?_).append (hlast.mono fun pid hpid => ⟨count, d, ?_, hpid⟩)
        · rintro pid ⟨i, e, he, hpid⟩
          refine ⟨i, e, ?_, hpid⟩
          rwa [List.getElem?_append_left (List.getElem?_eq_some_iff.mp he).1]
        · rw [List.getElem?_append_right (Nat.le_of_eq hlength), hlength, Nat.sub_self]
          rfl

/-- A daemon with a child, which is checked once more after it was signalled. -/
def impatientDaemon (restart : RestartPolicy) (pid : Nat) : Daemon :=
  { name := "d", project := Project.plainProject, binary := ⟨"d"⟩, arguments := [], restart
    process := { label := "d", stopPolicy := ⟨Duration.ofSeconds 1, 1⟩, child := some pid } }

/-- Four daemons. -/
def fourDaemons : List Daemon :=
  [impatientDaemon .everyCycle 5, impatientDaemon .onRebuild 6, impatientDaemon .onRebuild 7,
    impatientDaemon .everyCycle 8]

/-- A flag for each of them and one more: the first, the third and the fourth are selected. -/
def fiveFlags : List Bool := [false, false, true, true, true]

/-- The first daemon ends as it is asked to, and the third does not. -/
def stubbornPass : List Exchange :=
  [⟨.status 5, .alive⟩, ⟨.status 5, .alive⟩, ⟨.signal 5 .terminate, .ok ()⟩, ⟨.status 5, .exited⟩,
    ⟨.status 7, .alive⟩, ⟨.status 7, .unknown⟩, ⟨.signal 7 .terminate, .ok ()⟩,
    ⟨.status 7, .alive⟩, ⟨.sleep (Duration.ofSeconds 1), ()⟩, ⟨.status 7, .alive⟩]

/-- So the first daemon has let its child go, which was seen to end in its turn; the third keeps its
own, and the fourth, which would have been selected as well, is left alone.  There is one flag more
than there are daemons. -/
theorem restart_pass_stops_selected_stubborn :
    Action.Runs
      (applyRestartPolicy ⟨none, fourDaemons, Duration.ofSeconds 60⟩ fiveFlags)
      stubbornPass
      (.error (.stopTimeout "d" 7 1), ⟨none,
        (impatientDaemon .everyCycle 5).released :: fourDaemons.tail, Duration.ofSeconds 60⟩) ∧
    NoExitBetweenQueries fourDaemons stubbornPass ∧
    ∃ (done : List Daemon) (d : Daemon) (left : List Daemon) (turns : List (List Exchange))
        (turn : List Exchange),
      fourDaemons = done ++ d :: left ∧ Selected fiveFlags done.length d ∧
      stubbornPass = turns.flatten ++ turn ∧
      (∀ i e, done[i]? = some e → ∃ turn : List Exchange, turns[i]? = some turn ∧
        PassedBy fiveFlags i e turn) ∧
      TerminatesOnly (SelectedChild fiveFlags (done ++ [d]))
        stubbornPass := by
  have hruns : Action.Runs
      (applyRestartPolicy ⟨none, fourDaemons, Duration.ofSeconds 60⟩ fiveFlags)
      stubbornPass
      (.error (.stopTimeout "d" 7 1), ⟨none,
        (impatientDaemon .everyCycle 5).released :: fourDaemons.tail, Duration.ofSeconds 60⟩) :=
    Action.runs_of_replay rfl
  have hexits : NoExitBetweenQueries fourDaemons stubbornPass := by
    rintro d - before turn after outcome d' htrace - pid ⟨first, rest, hfirst, rfl⟩
    simp [stubbornPass, List.cons_eq_append_iff] at htrace
  obtain ⟨-, -, herror⟩ := restart_pass_stops_selected hruns hexits
  obtain ⟨done, d, left, turns, turn, hds, -, hselected, -, htrace, -, -, hpassed, hsignals⟩ :=
    herror _ rfl
  exact ⟨hruns, hexits, done, d, left, turns, turn, hds, hselected, htrace, hpassed, hsignals⟩

end Supervisor

end DaemonKeeper
