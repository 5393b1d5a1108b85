import DaemonKeeper.Proofs.ProcessRuns
set_option autoImplicit false

/-!
# Whom a stop signals (SPEC §3.4)

A stop asks twice for the child before it signals: once to see whether there is anything to stop,
once to tell whom.  The signal goes to the process id that the second query tells.  If the child
ends between the two, that is the process id of nothing, and the machine takes it for everybody.
-/

namespace DaemonKeeper

/-- The signal that the exchange sends, with its target. -/
def Exchange.signal? : Exchange → Option (Int × Signal)
  | ⟨.signal target signal, _⟩ => some (target, signal)
  | _ => none

/-- The signals that are sent in a trace, with their targets, in order. -/
def signals (trace : List Exchange) : List (Int × Signal) := trace.filterMap Exchange.signal?

/-- The signals of two traces in turn. -/
theorem signals_append (trace rest : List Exchange) :
    signals (trace ++ rest) = signals trace ++ signals rest :=
  List.filterMap_append

namespace ManagedProcess

variable {p p' : ManagedProcess} {trace : List Exchange}

/-- A query sends no signal. -/
theorem Asked.signals_eq_nil {running : Bool} (h : Asked p trace running p') :
    signals trace = [] := by
  cases h <;> rfl

/-- Waiting sends no signal. -/
theorem Awaited.signals_eq_nil {remaining checks total : Nat}
    (h : Awaited remaining checks p trace total p') : signals trace = [] := by
  induction h with
  | exhausted => rfl
  | ended hasked => exact hasked.signals_eq_nil
  | slept hasked _ ih =>
    rw [signals_append, hasked.signals_eq_nil]
    exact ih

/-- A stop either finds its child ended, and asks nothing more, or asks a second time and sends one
signal to whom that query tells. -/
theorem Stopped.cases_of_child {pid : Nat} {outcome : Except Fault Unit}
    (hchild : p.child = some pid) (h : Stopped p trace outcome p') :
    trace = [⟨.status pid, .exited⟩] ∨
    ∃ first second reply rest, first ≠ ChildStatus.exited ∧
      trace = ⟨.status pid, first⟩ :: ⟨.status pid, second⟩ ::
        ⟨.signal (if second = .exited then notRunningPid else pid) .terminate, reply⟩ :: rest ∧
      signals rest = [] := by
  -- The two queries and the signal are the same in every branch that sends one.
  have hsent : ∀ {q r : ManagedProcess} {first second rest : List Exchange} {running : Bool}
      {reply : Except IoFault Unit}, Asked p first true q → Asked q second running r →
      signals rest = [] →
      trace = first ++ (second ++ ⟨.signal r.toldPid .terminate, reply⟩ :: rest) →
      ∃ first second reply rest, first ≠ ChildStatus.exited ∧
        trace = ⟨.status pid, first⟩ :: ⟨.status pid, second⟩ ::
          ⟨.signal (if second = .exited then notRunningPid else pid) .terminate, reply⟩ :: rest ∧
        signals rest = [] := by
    intro q r first second rest running reply hfirst hsecond hrest htrace
    obtain ⟨reply₁, rfl, hreply₁, -⟩ := hfirst.of_child hchild
    obtain rfl := hfirst.eq_of_running
    obtain ⟨reply₂, rfl, -, htold⟩ := hsecond.of_child hchild
    refine ⟨reply₁, reply₂, reply, rest, hreply₁.mp rfl, ?_, hrest⟩
    rw [htrace, ← htold]
    rfl
  cases h with
  | idle hasked =>
    obtain ⟨reply, rfl, hreply, -⟩ := hasked.of_child hchild
    obtain rfl : reply = .exited := by simpa using hreply
    exact .inl rfl
  | refused hfirst hsecond => exact .inr (hsent hfirst hsecond rfl rfl)
  | ended hfirst hsecond hwait hlast =>
    refine .inr (hsent hfirst hsecond ?_ rfl)
    rw [signals_append, hwait.signals_eq_nil, hlast.signals_eq_nil]
    rfl
  | timedOut hfirst hsecond hwait hlast =>
    refine .inr (hsent hfirst hsecond ?_ rfl)
    rw [signals_append, hwait.signals_eq_nil, hlast.signals_eq_nil]
    rfl

/-- So it signals nobody, or sends one signal after two queries. -/
theorem Stopped.signals_of_child {pid : Nat} {outcome : Except Fault Unit}
    (hchild : p.child = some pid) (h : Stopped p trace outcome p') :
    (trace = [⟨.status pid, .exited⟩] ∧ signals trace = []) ∨
    ∃ first second rest, first ≠ ChildStatus.exited ∧
      trace = ⟨.status pid, first⟩ :: ⟨.status pid, second⟩ :: rest ∧
      signals trace =
        [(if second = ChildStatus.exited then notRunningPid else pid, Signal.terminate)] := by
  rcases h.cases_of_child hchild with rfl | ⟨first, second, reply, rest, hfirst, rfl, hrest⟩
  · exact .inl ⟨rfl, rfl⟩
  · exact .inr ⟨first, second, _, hfirst, rfl, congrArg (_ :: ·) hrest⟩

/-- The child was not known to have ended by the first query of a stop, and was by the second. -/
def EndsBetweenQueries (pid : Nat) (trace : List Exchange) : Prop :=
  ∃ first rest, first ≠ ChildStatus.exited ∧
    trace = ⟨.status pid, first⟩ :: ⟨.status pid, .exited⟩ :: rest

/-- A stop signals its own child and nobody else if and only if the child does not end between the
first two queries; if it does, the one signal goes to the process id of nothing. -/
theorem stop_signals_only_child_iff {pid : Nat} {outcome : Except Fault Unit}
    (hchild : p.child = some pid) (hruns : Action.Runs p.stop trace (outcome, p')) :
    ((∀ s ∈ signals trace, s = ((pid : Int), Signal.terminate)) ↔
      ¬ EndsBetweenQueries pid trace) ∧
    (EndsBetweenQueries pid trace → signals trace = [(notRunningPid, .terminate)]) := by
  rcases (stopped_of_runs_stop hruns).signals_of_child hchild with
    ⟨rfl, hnone⟩ | ⟨first, second, rest, hfirst, rfl, hone⟩
  · have hno : ¬ EndsBetweenQueries pid [⟨.status pid, .exited⟩] := by
      rintro ⟨_, _, _, h⟩
      cases h
    refine ⟨?_, fun h => absurd h hno⟩
    simp [hnone, hno]
  · have hends : EndsBetweenQueries pid
        (⟨.status pid, first⟩ :: ⟨.status pid, second⟩ :: rest) ↔ second = .exited := by
      constructor
      · rintro ⟨_, _, _, h⟩
        cases h
        rfl
      · rintro rfl
        exact ⟨first, rest, hfirst, rfl⟩
    rw [hends, hone]
    by_cases hsecond : second = .exited
    · have hpid : notRunningPid ≠ (pid : Int) := by
        unfold notRunningPid
        omega
      simp [hsecond, hpid]
    · simp [hsecond]

/-- A child that ends a moment too late for the first query and in time for the second: the stop
succeeds, and its signal has gone to everybody. -/
theorem stop_signals_everybody :
    Action.Runs (stop { label := "d", child := some 7 })
      [⟨.status 7, .alive⟩, ⟨.status 7, .exited⟩, ⟨.signal notRunningPid .terminate, .ok ()⟩]
      (.ok (), { label := "d" }) ∧
    (notRunningPid, Signal.terminate) ∈ signals
      [⟨.status 7, .alive⟩, ⟨.status 7, .exited⟩, ⟨.signal notRunningPid .terminate, .ok ()⟩] :=
  ⟨Action.runs_of_replay rfl, List.mem_singleton.mpr rfl⟩

/-- A child that lives through both queries and ends while it is waited for. -/
def politeStop : List Exchange :=
  [⟨.status 7, .alive⟩, ⟨.status 7, .alive⟩, ⟨.signal 7 .terminate, .ok ()⟩,
    ⟨.status 7, .alive⟩, ⟨.sleep (Duration.ofSeconds 1), ()⟩, ⟨.status 7, .exited⟩]

/-- It gets the signal itself. -/
theorem stop_signals_only_child_alive :
    Action.Runs (stop { label := "d", child := some 7 }) politeStop (.ok (), { label := "d" }) ∧
    ¬ EndsBetweenQueries 7 politeStop ∧
    ∀ s ∈ signals politeStop, s = (((7 : Nat) : Int), Signal.terminate) := by
  have hruns : Action.Runs (stop { label := "d", child := some 7 }) politeStop
      (.ok (), { label := "d" }) := Action.runs_of_replay rfl
  have hlives : ¬ EndsBetweenQueries 7 politeStop := by
    rintro ⟨_, _, _, h⟩
    cases h
  exact ⟨hruns, hlives, (stop_signals_only_child_iff rfl hruns).1.mpr hlives⟩

end ManagedProcess

end DaemonKeeper
