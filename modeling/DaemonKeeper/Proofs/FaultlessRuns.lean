import DaemonKeeper.Proofs.RunProgress
set_option autoImplicit false

/-!
# Runs without faults (SPEC §3.5)

A run is free of faults if the machine does what it is asked to, nobody interrupts, no update, poll
or build fails, and the children of the daemons are obedient.  What is left that could go wrong is
up to the supervisor: a daemon without a binary, a child that is started twice, a stop that is given
up.  None of this happens, because every daemon keeps its place in the cycle.
-/

namespace DaemonKeeper

open Log ManagedProcess

/-- The machine finds what is to be executed, starts and signals what it is asked to, and lets a
pause last. -/
def Exchange.smooth : Exchange → Bool
  | ⟨.isExecutable _, found⟩ => found
  | ⟨.spawn _ _, .error _⟩ => false
  | ⟨.signal _ _, .error _⟩ => false
  | ⟨.pause _, .interrupted⟩ => false
  | _ => true

namespace ManagedProcess

variable {p p' : ManagedProcess} {own trace stop : List Exchange} {pid maxChecks : Nat}
variable {outcome : Except Fault Unit}

/-! ## Starts and stops that succeed -/

/-- Where nothing is held, a smooth start succeeds. -/
theorem Started.eq_ok {executable : Path} {arguments : List String}
    (h : Started p executable arguments trace outcome p') (hnone : p.child = none)
    (hsmooth : ∀ e ∈ trace, e.smooth = true) : outcome = .ok () := by
  cases h with
  | notExecutable =>
    have hfound := hsmooth ⟨.isExecutable executable, false⟩ (by simp)
    cases hfound
  | alreadyRunning hfirst _ =>
    have hsome := hfirst.isSome_child
    rw [hfirst.eq_of_running, hnone] at hsome
    cases hsome
  | @refused first _ cause _ =>
    have hspawned := hsmooth ⟨.spawn executable arguments, .error cause⟩ (by simp)
    cases hspawned
  | spawned _ => rfl

/-- The child is held, and this is what is known of it. -/
structure Known (own : List Exchange) (pid : Nat) (st : Standing) : Prop where
  held_eq : held none own = some pid
  standing_eq : standing pid own = st

namespace Known

variable {st : Standing}

theorem sleep (h : Known own pid st) (duration : Duration) :
    Known (own ++ [⟨.sleep duration, ()⟩]) pid st where
  held_eq := by
    rw [held_append, h.held_eq]
    rfl
  standing_eq := by
    rw [standing_concat, h.standing_eq]
    rfl

/-- A query that does not see the end of the child. -/
theorem status (h : Known own pid st) {reply : ChildStatus} (hreply : reply ≠ .exited) :
    Known (own ++ [⟨.status pid, reply⟩]) pid st.asked := by
  cases reply with
  | exited => exact absurd rfl hreply
  | alive | unknown =>
    refine ⟨?_, ?_⟩
    · rw [held_append, h.held_eq]
      rfl
    · rw [standing_concat, h.standing_eq]
      exact if_pos rfl

theorem signal (h : Known own pid st) :
    Known (own ++ [⟨.signal pid .terminate, .ok ()⟩]) pid st.signalled where
  held_eq := by
    rw [held_append, h.held_eq]
    rfl
  standing_eq := by
    rw [standing_concat, h.standing_eq]
    exact if_pos rfl

/-- Watching a child that was asked to end counts the queries. -/
theorem watched {interval : Duration} {n k : Nat} {watch : List Exchange}
    (hwatched : Watched pid interval n watch) (h : Known own pid (.leaving k)) :
    Known (own ++ watch) pid (.leaving (k + n)) := by
  induction hwatched generalizing own k with
  | nil => rwa [List.append_nil]
  | @cons n reply rest hreply _ ih =>
    have hrest := ih ((h.status hreply).sleep interval)
    have hcount : k + 1 + n = k + (n + 1) := by omega
    rw [hcount] at hrest
    simpa using hrest

end Known

/-- An obedient child that runs is never overdue. -/
theorem Running.not_overdue {policy : StopPolicy} (h : Running p own pid)
    (hled : LedBy policy.maxChecks (own ++ stop)) : ¬ Overdue policy pid stop := by
  rintro ⟨hfirst, hsecond, hwatched, hlast⟩
  rename_i first second last watch
  have hknown : Known own pid .running := ⟨h.held_eq, h.standing_eq⟩
  have hgone := Known.watched hwatched ((hknown.status hfirst).status hsecond).signal
  rw [Nat.zero_add] at hgone
  have hallowed := hled _ ⟨.status pid, last⟩ [] pid (by simp) hgone.held_eq
  rw [hgone.standing_eq] at hallowed
  simp [Standing.allows, hlast] at hallowed

/-- Where nothing is held or an obedient child runs, a smooth stop succeeds. -/
theorem Stopped.eq_ok (h : Stopped p stop outcome p')
    (hrunning : (∃ pid, Running p own pid) ∨ p.child = none)
    (hled : LedBy p.stopPolicy.maxChecks (own ++ stop))
    (hsmooth : ∀ e ∈ stop, e.smooth = true) : outcome = .ok () := by
  cases h with
  | idle _ => rfl
  | @refused first second running q _ cause _ _ =>
    have hsent := hsmooth ⟨.signal p'.toldPid .terminate, .error cause⟩ (by simp)
    cases hsent
  | ended _ _ _ _ => rfl
  | timedOut hfirst hsecond hwait hlast =>
    obtain ⟨pid, hchild, -, hoverdue⟩ := (Stopped.timedOut hfirst hsecond hwait hlast).overdue
    rcases hrunning with ⟨pid', hrunning⟩ | hnone
    · obtain rfl : pid' = pid := Option.some.inj (hrunning.child_eq.symm.trans hchild)
      exact absurd hoverdue (hrunning.not_overdue hled)
    · rw [hchild] at hnone
      cases hnone

end ManagedProcess

namespace Supervisor

variable {d₀ d d' : Daemon} {turn trace : List Exchange} {buildName : String}

/-! ## Updates, polls and builds that fail -/

/-- An update, a poll or a build of the daemon that ends in a fault. -/
def Failing (d : Daemon) (trace : List Exchange) : Prop :=
  ∃ fault, Action.Runs d.cloneSources.attempt trace (.error fault) ∨
    Action.Runs d.hasUpstreamChange.attempt trace (.error fault) ∨
    ∃ buildName, Action.Runs (d.buildBinary buildName).attempt trace (.error fault)

/-- The last thing in the trace is an update, a poll or a build of the daemon that has failed. -/
def EndsInFailure (d : Daemon) (trace : List Exchange) : Prop :=
  ∃ before piece, trace = before ++ piece ∧ Failing d piece

theorem Failing.endsInFailure (h : Failing d trace) (before : List Exchange) :
    EndsInFailure d (before ++ trace) :=
  ⟨before, trace, rfl, h⟩

theorem EndsInFailure.prepend (h : EndsInFailure d trace) (before : List Exchange) :
    EndsInFailure d (before ++ trace) := by
  obtain ⟨first, piece, rfl, hfailing⟩ := h
  exact ⟨before ++ first, piece, by rw [List.append_assoc], hfailing⟩

/-- A refresh fails only by its update or its build. -/
theorem endsInFailure_of_runs_refresh {fault : Fault}
    (h : Action.Runs (d.refresh buildName) turn (.error fault, d')) : EndsInFailure d turn := by
  obtain ⟨update, build, updated, rfl, hupdate, hbuild⟩ := Action.runs_bind_iff.mp h
  cases updated with
  | error cause =>
    obtain ⟨rfl, -, -⟩ := Action.runs_pure_pair_iff.mp hbuild
    rw [List.append_nil]
    exact Failing.endsInFailure ⟨cause, .inl hupdate⟩ []
  | ok =>
    obtain ⟨recipe, last, built, rfl, hrecipe, hend⟩ := Action.runs_bind_iff.mp hbuild
    cases built with
    | error cause =>
      obtain ⟨rfl, -, -⟩ := Action.runs_pure_pair_iff.mp hend
      rw [List.append_nil]
      exact Failing.endsInFailure ⟨cause, .inr (.inr ⟨buildName, hrecipe⟩)⟩ update
    | ok path =>
      obtain ⟨-, hfault, -⟩ := Action.runs_pure_pair_iff.mp hend
      cases hfault

/-- A rebuild fails only by its poll or its refresh. -/
theorem endsInFailure_of_runs_rebuildDaemon {fault : Fault}
    (h : Action.Runs (rebuildDaemon buildName d) turn (.error fault, d')) :
    EndsInFailure d turn := by
  obtain ⟨poll, rest, polled, rfl, hpoll, hrest⟩ := Action.runs_bind_iff.mp h
  rcases polled with cause | changed
  · obtain ⟨rfl, -, -⟩ := Action.runs_pure_pair_iff.mp hrest
    rw [List.append_nil]
    exact Failing.endsInFailure ⟨cause, .inr (.inl hpoll)⟩ []
  cases changed with
  | false =>
    obtain ⟨-, hfault, -⟩ := Action.runs_pure_pair_iff.mp hrest
    cases hfault
  | true =>
    obtain ⟨build, last, ⟨built, d₁⟩, rfl, hbuild, hend⟩ := Action.runs_bind_iff.mp hrest
    obtain ⟨rfl, hanswer, -⟩ := Action.runs_pure_pair_iff.mp hend
    cases built with
    | error cause =>
      rw [List.append_nil]
      exact (endsInFailure_of_runs_refresh hbuild).prepend poll
    | ok => cases hanswer

/-- A daemon that was built can be started smoothly. -/
theorem eq_ok_of_runs_startDaemon {outcome : Except Fault Unit}
    (h : Action.Runs (startDaemon d) turn (outcome, d')) (hbuilt : d.executable.isSome = true)
    (hsmooth : ∀ e ∈ turn, e.smooth = true) : outcome = .ok () := by
  obtain ⟨ensuring, telling, ⟨started, d₁⟩, rfl, hensure, htell⟩ := Action.runs_bind_iff.mp h
  have hstarted : ∃ new, started = .ok new := by
    obtain ⟨asking, starting, ⟨running, d₂⟩, rfl, hask, hstart⟩ := Action.runs_bind_iff.mp hensure
    obtain ⟨query, last, ⟨answer, p⟩, rfl, hquery, hend⟩ := Action.runs_bind_iff.mp hask
    obtain ⟨rfl, rfl, rfl⟩ := Action.runs_pure_pair_iff.mp hend
    have hasked := asked_of_runs_isRunning hquery
    cases running with
    | true =>
      obtain ⟨-, rfl, -⟩ := Action.runs_pure_pair_iff.mp hstart
      exact ⟨false, rfl⟩
    | false =>
      simp only [Bool.false_eq_true, if_false] at hstart
      split at hstart
      · rename_i hnothing
        have hnone : d.executable = none := hnothing
        rw [hnone] at hbuilt
        cases hbuilt
      · rename_i path hpath
        obtain ⟨start, last, ⟨answer, q⟩, rfl, hspawn, hend⟩ := Action.runs_bind_iff.mp hstart
        obtain ⟨rfl, rfl, rfl⟩ := Action.runs_pure_pair_iff.mp hend
        have hok : answer = .ok () := by
          refine (started_of_runs_start hspawn).eq_ok hasked.child_eq_none fun e he => ?_
          exact hsmooth e (by simp [he])
        exact ⟨true, by rw [hok]; rfl⟩
  obtain ⟨new, rfl⟩ := hstarted
  cases new with
  | false => exact (Action.runs_pure_pair_iff.mp htell).2.1
  | true =>
    obtain ⟨_, _, _, -, -, hend⟩ := Action.runs_bind_iff.mp htell
    exact (Action.runs_pure_pair_iff.mp hend).2.1

/-! ## A run that is going on -/

/-- A supervisor with nothing in the hands of its daemons, while some processes are outstanding. -/
structure Begun (s₁ : Supervisor) (maxChecks : Nat) (out : List Nat) : Prop where
  heldOnce : HeldOnce s₁.holdings out
  idle : ∀ d ∈ s₁.daemons, d.process.child = none
  patience : ∀ d ∈ s₁.daemons, d.process.stopPolicy.maxChecks = maxChecks

/-- Nothing goes wrong in the trace that is not up to the supervisor. -/
structure FaultFree (s₁ : Supervisor) (maxChecks : Nat) (out : List Nat) (trace : List Exchange) :
    Prop where
  smooth : ∀ e ∈ trace, e.smooth = true
  faultless : ∀ d ∈ s₁.daemons, ¬ EndsInFailure d trace
  fresh : FreshPids out trace
  obedient : Obedient maxChecks trace

variable {s₁ s s' : Supervisor} {maxChecks : Nat} {out : List Nat} {whole loop : List Exchange}
variable {P : Nat → Daemon → List Exchange → Daemon → Prop} {log : Log} {i : Nat}

/-- The children of a daemon are obedient as far as the daemon can see. -/
theorem FaultFree.ledBy {later : List Exchange} (h : FaultFree s₁ maxChecks out whole)
    (hbegun : Begun s₁ maxChecks out) (hrecorded : Recorded s₁ log s)
    (hwhole : whole = Log.trace log ++ later) (hi : i < s₁.daemons.length) :
    LedBy maxChecks (log.own (.daemon i)) := by
  have hfresh := h.fresh
  have hobedient := h.obedient
  rw [hwhole] at hfresh hobedient
  refine ledBy_of_obedient hbegun.heldOnce hrecorded.kept (freshPids_append.mp hfresh).1 ?_
    hobedient.left
  have hd : s₁.daemons[i]? = some s₁.daemons[i] := List.getElem?_eq_getElem hi
  rw [holdings, hd]
  exact hbegun.idle _ (List.getElem_mem hi)

/-- Every party finds the machine smooth. -/
theorem FaultFree.smooth_own {later : List Exchange} (h : FaultFree s₁ maxChecks out whole)
    (hwhole : whole = Log.trace log ++ later) (party : Party) :
    ∀ e ∈ log.own party, e.smooth = true := by
  intro e he
  refine h.smooth e ?_
  rw [hwhole]
  exact List.mem_append_left _ (mem_trace_of_mem_own he)

/-- What a daemon sees of a tour is as smooth, and its child as obedient, as the run is. -/
theorem FaultFree.ledBy_and_smooth {piece : Log} {later : List Exchange}
    (h : FaultFree s₁ maxChecks out whole) (hbegun : Begun s₁ maxChecks out)
    (hrecorded : Recorded s₁ (log ++ piece) s)
    (hwhole : whole = Log.trace (log ++ piece) ++ later) (hi : i < s₁.daemons.length) :
    LedBy maxChecks (log.own (.daemon i) ++ piece.own (.daemon i)) ∧
      ∀ e ∈ piece.own (.daemon i), e.smooth = true := by
  rw [← own_append]
  refine ⟨h.ledBy hbegun hrecorded hwhole hi, fun e he => ?_⟩
  refine h.smooth_own hwhole (.daemon i) e ?_
  rw [own_append]
  exact List.mem_append_right _ he

namespace SoFar

variable {α : Type} {pass later : List Exchange}

/-- A tour of the daemons, each of which is where it should be, succeeds if no turn can fail but by
an update, a poll or a build: a turn that fails is the last of the run. -/
theorem eq_ok_of_tour {step : Nat → Daemon → Action (Except Fault α × Daemon)} {piece : Log}
    {answers : Except Fault (List α)} {ds' : List Daemon} (h : SoFar P s₁ log loop s)
    (hbegun : Begun s₁ maxChecks out) (hfree : FaultFree s₁ maxChecks out whole)
    (hwhole : whole = Log.trace (log ++ piece) ++ later)
    (hend : ∀ fault, answers = .error fault → later = [])
    (htour : Tour step 0 s.daemons piece answers ds')
    (hkeeps : ∀ i d turn answer d', Action.Runs (step i d) turn (answer, d') →
      KeepsToChild d.process turn d'.process)
    (hfails : ∀ i d₀ own d turn fault d', d₀ ∈ s₁.daemons → P i d₀ own d →
      LedBy maxChecks (own ++ turn) → (∀ e ∈ turn, e.smooth = true) →
      Action.Runs (step i d) turn (.error fault, d') → EndsInFailure d₀ turn) :
    ∃ as, answers = .ok as := by
  cases answers with
  | ok as => exact ⟨as, rfl⟩
  | error fault =>
    exfalso
    obtain ⟨count, hbroken⟩ := htour.fails
    obtain ⟨d, d', hd, -, hruns⟩ := hbroken.failed
    have hlogged : Logged (fun d turn d' => KeepsToChild d.process turn d'.process) s piece
        (s.withDaemons ds') := htour.logged hkeeps [] rfl s rfl
    have hrecorded := h.recorded.append (hlogged.recorded fun _ _ _ hturn => hturn)
    have hcount : count < s₁.daemons.length := by
      rw [← h.everyone.length_eq]
      exact (List.getElem?_eq_some_iff.mp hd).1
    have hmem : s₁.daemons[count] ∈ s₁.daemons := List.getElem_mem hcount
    obtain ⟨e, he, hplace⟩ := h.everyone.each count _ (List.getElem?_eq_getElem hcount)
    obtain rfl : d = e := Option.some.inj (hd.symm.trans he)
    obtain ⟨hled, hsmooth⟩ := hfree.ledBy_and_smooth hbegun hrecorded hwhole hcount
    rw [Nat.zero_add] at hruns
    have hfailure := hfails count _ _ d _ fault d' hmem hplace hled hsmooth hruns
    -- The run has ended with the tour, and the tour with this turn.
    obtain rfl := hend fault rfl
    refine hfree.faultless _ hmem ?_
    rw [hwhole, List.append_nil, trace_append, hbroken.trace_eq, Nat.zero_add, ← List.append_assoc]
    exact hfailure.prepend _

/-- The same for a pass over the daemons. -/
theorem eq_ok_of_eachDaemon {step : Daemon → Action (Except Fault α × Daemon)}
    {answers : Except Fault (List α)} (h : SoFar P s₁ log loop s)
    (hbegun : Begun s₁ maxChecks out) (hfree : FaultFree s₁ maxChecks out whole)
    (hwhole : whole = Log.trace log ++ (pass ++ later))
    (hend : ∀ fault, answers = .error fault → later = [])
    (hruns : Action.Runs (s.eachDaemon step) pass (answers, s'))
    (hkeeps : ∀ d turn answer d', Action.Runs (step d) turn (answer, d') →
      KeepsToChild d.process turn d'.process)
    (hfails : ∀ i d₀ own d turn fault d', d₀ ∈ s₁.daemons → P i d₀ own d →
      LedBy maxChecks (own ++ turn) → (∀ e ∈ turn, e.smooth = true) →
      Action.Runs (step d) turn (.error fault, d') → EndsInFailure d₀ turn) :
    ∃ as, answers = .ok as := by
  obtain ⟨piece, ds', rfl, htour, -⟩ := tour_of_runs_eachDaemon hruns
  exact h.eq_ok_of_tour hbegun hfree (by simpa using hwhole) hend htour (fun _ => hkeeps) hfails

/-- The same where the answers do not matter. -/
theorem eq_ok_of_eachDaemonEffect {step : Daemon → Action (Except Fault α × Daemon)}
    {outcome : Except Fault Unit} (h : SoFar P s₁ log loop s)
    (hbegun : Begun s₁ maxChecks out) (hfree : FaultFree s₁ maxChecks out whole)
    (hwhole : whole = Log.trace log ++ (pass ++ later))
    (hend : ∀ fault, outcome = .error fault → later = [])
    (hruns : Action.Runs (s.eachDaemonEffect step) pass (outcome, s'))
    (hkeeps : ∀ d turn answer d', Action.Runs (step d) turn (answer, d') →
      KeepsToChild d.process turn d'.process)
    (hfails : ∀ i d₀ own d turn fault d', d₀ ∈ s₁.daemons → P i d₀ own d →
      LedBy maxChecks (own ++ turn) → (∀ e ∈ turn, e.smooth = true) →
      Action.Runs (step d) turn (.error fault, d') → EndsInFailure d₀ turn) :
    outcome = .ok () := by
  obtain ⟨first, last, ⟨answers, s₂⟩, rfl, hpass, hlast⟩ := Action.runs_bind_iff.mp hruns
  obtain ⟨rfl, rfl, rfl⟩ := Action.runs_pure_pair_iff.mp hlast
  rw [List.append_nil] at hwhole
  obtain ⟨as, rfl⟩ := h.eq_ok_of_eachDaemon hbegun hfree hwhole
    (by rintro fault rfl; exact hend fault rfl) hpass hkeeps hfails
  rfl

end SoFar

end Supervisor

end DaemonKeeper
