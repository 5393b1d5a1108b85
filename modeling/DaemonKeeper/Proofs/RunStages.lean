import DaemonKeeper.Proofs.Trace
import DaemonKeeper.Supervisor
set_option autoImplicit false

/-!
# The stages of a run (SPEC §3.5)

A run comes to the point where it starts what is not running once in each of its cycles.  What it
does up to that point is a program of its own, `approach`, and the run is that program followed by
the cycles that are left.  So a fact about every run of `approach` is a fact about every run, at the
time when it has come so far.
-/

namespace DaemonKeeper.Supervisor

/-! ## Two parts of a run in turn -/

section

variable {α β : Type} {x : Action (Except Fault α × Supervisor)}
variable {next : α → Supervisor → Action (Except Fault β × Supervisor)} {s₁ s' : Supervisor}
variable {trace : List Exchange}

/-- The first part fails, or the second one follows. -/
theorem runs_andThen {outcome : Except Fault β}
    (h : Action.Runs (andThen x next) trace (outcome, s')) :
    (∃ fault, Action.Runs x trace (.error fault, s') ∧ outcome = .error fault) ∨
    ∃ first second a s₁, trace = first ++ second ∧ Action.Runs x first (.ok a, s₁) ∧
      Action.Runs (next a s₁) second (outcome, s') := by
  obtain ⟨first, second, ⟨answer, s₁⟩, rfl, hx, hnext⟩ := Action.runs_bind_iff.mp h
  cases answer with
  | error fault =>
    obtain ⟨rfl, rfl, rfl⟩ := Action.runs_pure_pair_iff.mp hnext
    exact .inl ⟨fault, by rwa [List.append_nil], rfl⟩
  | ok a => exact .inr ⟨first, second, a, s₁, rfl, hx, hnext⟩

/-- Both succeed if the whole does. -/
theorem runs_andThen_ok {b : β} (h : Action.Runs (andThen x next) trace (.ok b, s')) :
    ∃ first second a s₁, trace = first ++ second ∧ Action.Runs x first (.ok a, s₁) ∧
      Action.Runs (next a s₁) second (.ok b, s') := by
  rcases runs_andThen h with ⟨fault, -, hfault⟩ | hparts
  · cases hfault
  · exact hparts

/-- After a first part that has succeeded, what is left of the trace is that of the second part. -/
theorem runs_of_runs_andThen {first second : List Exchange} {a : α} {answer : Except Fault β}
    (hx : Action.Runs x first (.ok a, s₁))
    (h : Action.Runs (andThen x next) (first ++ second) (answer, s')) :
    Action.Runs (next a s₁) second (answer, s') := by
  unfold andThen at h
  have hrest := Action.runs_of_runs_bind hx h
  exact hrest

end

/-! ## Cycles -/

/-- How far a run has come: it goes on, or it has ended with an outcome. -/
inductive Progress where
  | underWay
  | ended (outcome : Except Fault Unit)

/-- A run goes on unless something has failed. -/
def Progress.ofOutcome : Except Fault Unit → Progress
  | .ok () => .underWay
  | .error fault => .ended (.error fault)

/-- What a run does before its first cycle: it starts the coordinator and builds every daemon. -/
def boot (s : Supervisor) : Action (Except Fault Unit × Supervisor) :=
  andThen s.startCoordinator fun _ s => do
    let buildName ← currentBuildName
    s.buildAll buildName

/-- What a cycle does once every daemon runs: report, pause, and renew, or shut down if it was
interrupted. -/
def finishCycle (s : Supervisor) : Action (Progress × Supervisor) := do
  let s ← s.report
  match ← Action.request (.pause s.pollInterval) with
  | .interrupted => do
    let (outcome, s) ← s.shutdown
    return (.ended outcome, s)
  | .elapsed => do
    let (outcome, s) ← s.renew
    return (.ofOutcome outcome, s)

/-- One cycle. -/
def cycle (s : Supervisor) : Action (Progress × Supervisor) := do
  let (outcome, s) ← s.ensureRunning
  match outcome with
  | .error fault => return (.ended (.error fault), s)
  | .ok () => s.finishCycle

/-- A run up to the moment before it starts what is not running in the cycle with this index. -/
def approach : Nat → Supervisor → Action (Progress × Supervisor)
  | 0, s => do
    let (outcome, s) ← s.boot
    return (.ofOutcome outcome, s)
  | k + 1, s => do
    let (progress, s) ← approach k s
    match progress with
    | .ended outcome => return (.ended outcome, s)
    | .underWay => s.cycle

/-- What follows a cycle, unless the cycle has ended the run. -/
def goOn (next : Supervisor → Action (Except Fault Unit × Supervisor)) :
    Progress × Supervisor → Action (Except Fault Unit × Supervisor)
  | (.ended outcome, s) => pure (outcome, s)
  | (.underWay, s) => next s

/-- A cycle that is followed by something else, unless it is interrupted. -/
def cycleThen (next : Supervisor → Action (Except Fault Unit × Supervisor)) (s : Supervisor) :
    Action (Except Fault Unit × Supervisor) :=
  andThen s.ensureRunning fun _ s => do
    let s ← s.report
    match ← Action.request (.pause s.pollInterval) with
    | .interrupted => s.shutdown
    | .elapsed => andThen s.renew fun _ s => next s

/-- The last cycle is followed by the shutdown. -/
theorem cycles_zero_eq (s : Supervisor) : cycles 0 s = cycleThen shutdown s := by
  unfold cycles
  rfl

/-- Every other one is followed by the next. -/
theorem cycles_succ_eq (remaining : Nat) (s : Supervisor) :
    cycles (remaining + 1) s = cycleThen (cycles remaining) s := by
  rw [cycles]
  rfl

/-- Either way, it is one cycle and what follows it. -/
theorem cycleThen_eq (next : Supervisor → Action (Except Fault Unit × Supervisor))
    (s : Supervisor) : cycleThen next s = s.cycle >>= goOn next := by
  unfold cycleThen cycle
  rw [andThen, bind_assoc]
  refine congrArg (s.ensureRunning >>= ·) (funext fun ⟨outcome, s⟩ => ?_)
  cases outcome with
  | error fault => rfl
  | ok =>
    simp only [finishCycle, bind_assoc]
    refine congrArg (s.report >>= ·) (funext fun s => ?_)
    refine congrArg (Action.request (.pause s.pollInterval) >>= ·) (funext fun wake => ?_)
    cases wake with
    | interrupted =>
      simp only [bind_assoc, pure_bind, goOn]
      exact (bind_pure s.shutdown).symm
    | elapsed =>
      simp only [bind_assoc, pure_bind, andThen]
      refine congrArg (s.renew >>= ·) (funext fun ⟨outcome, s⟩ => ?_)
      cases outcome <;> rfl

/-- What is left of a run with `remaining` cycles after the present one. -/
def resume (remaining : Nat) : Progress × Supervisor → Action (Except Fault Unit × Supervisor)
  | (.ended outcome, s) => pure (outcome, s)
  | (.underWay, s) => cycles remaining s

/-- Cycles are one cycle and the cycles after it. -/
theorem cycles_succ (remaining : Nat) (s : Supervisor) :
    cycles (remaining + 1) s = s.cycle >>= resume remaining := by
  rw [cycles_succ_eq, cycleThen_eq]
  refine congrArg (s.cycle >>= ·) (funext fun ⟨progress, s⟩ => ?_)
  cases progress <;> rfl

/-- A run is its way to a cycle and what is left from there. -/
theorem run_eq_approach {s : Supervisor} {limit : Option Nat} {k : Nat}
    (hk : k ≤ furtherCycles limit) :
    s.run limit = s.approach k >>= resume (furtherCycles limit - k) := by
  induction k with
  | zero =>
    unfold run approach boot
    simp only [andThen, bind_assoc]
    refine congrArg (s.startCoordinator >>= ·) (funext fun ⟨outcome, s⟩ => ?_)
    cases outcome with
    | error fault => rfl
    | ok =>
      simp only [bind_assoc]
      refine congrArg (currentBuildName >>= ·) (funext fun buildName => ?_)
      refine congrArg (s.buildAll buildName >>= ·) (funext fun ⟨outcome, s⟩ => ?_)
      cases outcome <;> rfl
  | succ k ih =>
    obtain ⟨remaining, hremaining⟩ : ∃ remaining, furtherCycles limit - k = remaining + 1 :=
      ⟨furtherCycles limit - (k + 1), by omega⟩
    have hlater : furtherCycles limit - (k + 1) = remaining := by omega
    rw [ih (by omega), hremaining, hlater, approach, bind_assoc]
    refine congrArg (s.approach k >>= ·) (funext fun ⟨progress, s⟩ => ?_)
    cases progress with
    | ended outcome => rfl
    | underWay => exact cycles_succ remaining s

end DaemonKeeper.Supervisor
