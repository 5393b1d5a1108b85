import DaemonKeeper.Proofs.DaemonRuns
import DaemonKeeper.Proofs.PartyLogs
set_option autoImplicit false

/-!
# Passes: one turn for every daemon (SPEC §3.5)

A pass over the daemons takes one turn for each of them, in order, up to the first that fails.  If
the pass succeeds, its trace is the turns one after the other; if it fails, the last turn is the one
that has failed, and the daemons after it have had none.  What happened in the turn of a daemon is a
run of the step on that daemon alone.
-/

namespace DaemonKeeper

open Log ManagedProcess

/-! ## Turns in a log -/

/-- What each of so many daemons, from an index on, has exchanged. -/
def Log.turns (i count : Nat) (log : Log) : List (List Exchange) :=
  (List.range' i count).map fun j => log.own (.daemon j)

theorem Log.getElem?_turns {i count k : Nat} (log : Log) (hk : k < count) :
    (log.turns i count)[k]? = some (log.own (.daemon (i + k))) := by
  unfold turns
  rw [List.getElem?_map, List.getElem?_range' hk, Nat.one_mul]
  rfl

theorem Log.length_turns (i count : Nat) (log : Log) : (log.turns i count).length = count := by
  simp [turns]

/-- What a daemon exchanges is no concern of those after it. -/
theorem Log.own_entries_append_of_lt {i j : Nat} (hij : i < j) (turn : List Exchange) (log : Log) :
    (entries (.daemon i) turn ++ log).own (.daemon j) = log.own (.daemon j) := by
  have hother : Party.daemon i ≠ .daemon j := by
    rw [Ne, Party.daemon.injEq]
    omega
  rw [own_append, own_entries_of_ne hother, List.nil_append]

/-- Where the others are no concern of the first daemon, its turn is put before theirs. -/
theorem Log.turns_entries_append {i : Nat} {turn : List Exchange} {log : Log}
    (hothers : log.own (.daemon i) = []) (count : Nat) :
    (entries (.daemon i) turn ++ log).turns i (count + 1) = turn :: log.turns (i + 1) count := by
  unfold turns
  rw [List.range'_succ, List.map_cons, own_append, own_entries_self, hothers, List.append_nil]
  refine congrArg (turn :: ·) (List.map_congr_left fun k hk => ?_)
  exact own_entries_append_of_lt (List.mem_range'_1.mp hk).1 turn log

namespace Supervisor

/-! ## Tours -/

variable {α : Type} {step : Nat → Daemon → Action (Except Fault α × Daemon)}
variable {ds ds' : List Daemon} {trace : List Exchange}

/-- A step for each daemon from some index on, up to the first one that fails. -/
inductive Tour (step : Nat → Daemon → Action (Except Fault α × Daemon)) :
    Nat → List Daemon → Log → Except Fault (List α) → List Daemon → Prop
  | nil {i : Nat} : Tour step i [] [] (.ok []) []
  | failed {i : Nat} {d d' : Daemon} {turn : List Exchange} {fault : Fault} {rest : List Daemon} :
    Action.Runs (step i d) turn (.error fault, d') →
    Tour step i (d :: rest) (entries (.daemon i) turn) (.error fault) (d' :: rest)
  | cons {i : Nat} {d d' : Daemon} {turn : List Exchange} {a : α} {rest rest' : List Daemon}
      {log : Log} {outcome : Except Fault (List α)} :
    Action.Runs (step i d) turn (.ok a, d') → Tour step (i + 1) rest log outcome rest' →
    Tour step i (d :: rest) (entries (.daemon i) turn ++ log) (outcome.map (a :: ·)) (d' :: rest')

/-- A pass over the daemons is a tour. -/
theorem tour_of_runs_forDaemons {step : Daemon → Action (Except Fault α × Daemon)}
    {outcome : Except Fault (List α)} (h : Action.Runs (forDaemons step ds) trace (outcome, ds'))
    (i : Nat) : ∃ log, Log.trace log = trace ∧ Tour (fun _ => step) i ds log outcome ds' := by
  induction ds generalizing i trace outcome ds' with
  | nil =>
    obtain ⟨rfl, rfl, rfl⟩ := Action.runs_pure_pair_iff.mp h
    exact ⟨[], rfl, .nil⟩
  | cons d rest ih =>
    unfold forDaemons at h
    obtain ⟨turn, others, ⟨answer, d'⟩, rfl, hturn, hothers⟩ := Action.runs_bind_iff.mp h
    cases answer with
    | error fault =>
      obtain ⟨rfl, rfl, rfl⟩ := Action.runs_pure_pair_iff.mp hothers
      exact ⟨_, by rw [trace_entries, List.append_nil], .failed hturn⟩
    | ok a =>
      obtain ⟨pass, last, ⟨later, rest'⟩, rfl, hpass, hend⟩ := Action.runs_bind_iff.mp hothers
      obtain ⟨rfl, rfl, rfl⟩ := Action.runs_pure_pair_iff.mp hend
      obtain ⟨log, rfl, htour⟩ := ih hpass (i + 1)
      exact ⟨_, by rw [trace_append, trace_entries, List.append_nil], .cons hturn htour⟩

/-- So is a pass of a supervisor, which changes nothing but its daemons. -/
theorem tour_of_runs_eachDaemon {step : Daemon → Action (Except Fault α × Daemon)}
    {s s' : Supervisor} {outcome : Except Fault (List α)}
    (h : Action.Runs (s.eachDaemon step) trace (outcome, s')) :
    ∃ log ds', Log.trace log = trace ∧ Tour (fun _ => step) 0 s.daemons log outcome ds' ∧
      s' = s.withDaemons ds' := by
  obtain ⟨pass, last, ⟨answer, ds'⟩, rfl, hpass, hend⟩ := Action.runs_bind_iff.mp h
  obtain ⟨rfl, rfl, rfl⟩ := Action.runs_pure_pair_iff.mp hend
  obtain ⟨log, rfl, htour⟩ := tour_of_runs_forDaemons hpass 0
  exact ⟨log, ds', (List.append_nil _).symm, htour, rfl⟩

theorem tour_of_runs_eachDaemonEffect {step : Daemon → Action (Except Fault α × Daemon)}
    {s s' : Supervisor} {outcome : Except Fault Unit}
    (h : Action.Runs (s.eachDaemonEffect step) trace (outcome, s')) :
    ∃ log answers ds', Log.trace log = trace ∧ Tour (fun _ => step) 0 s.daemons log answers ds' ∧
      s' = s.withDaemons ds' ∧ outcome = answers.map fun _ => () := by
  obtain ⟨pass, last, ⟨answers, s₁⟩, rfl, hpass, hend⟩ := Action.runs_bind_iff.mp h
  obtain ⟨rfl, rfl, rfl⟩ := Action.runs_pure_pair_iff.mp hend
  obtain ⟨log, ds', rfl, htour, rfl⟩ := tour_of_runs_eachDaemon hpass
  exact ⟨log, answers, ds', (List.append_nil _).symm, htour, rfl, rfl⟩

/-- The step of a pass that stops what is selected, for the daemon with an index. -/
def stopStep (flags : List Bool) (i : Nat) (d : Daemon) : Action (Except Fault Unit × Daemon) :=
  if (flags[i]?).any d.restart.restarts then d.stop else pure (.ok (), d)

/-- Nothing is stopped without flags. -/
theorem stopSelected_nil_right (ds : List Daemon) : stopSelected ds [] = pure (.ok (), ds) := by
  cases ds <;> rfl

/-- A daemon has its turn, and if it has succeeded those after it have theirs. -/
theorem stopSelected_cons_drop (flags : List Bool) (i : Nat) (d : Daemon) (rest : List Daemon) :
    stopSelected (d :: rest) (flags.drop i) = do
      let (outcome, d) ← stopStep flags i d
      match outcome with
      | .error fault => return (.error fault, d :: rest)
      | .ok () =>
        let (outcome, rest) ← stopSelected rest (flags.drop (i + 1))
        return (outcome, d :: rest) := by
  unfold stopStep
  rcases Nat.lt_or_ge i flags.length with hi | hi
  · rw [List.drop_eq_getElem_cons hi, List.getElem?_eq_getElem hi, Option.any_some, stopSelected]
    split <;> rfl
  · -- The flags are over, and the daemons from here on are passed over.
    rw [List.getElem?_eq_none hi, List.drop_of_length_le hi,
      List.drop_of_length_le (Nat.le_succ_of_le hi), stopSelected_nil_right, stopSelected_nil_right]
    rfl

/-- Stopping what is selected is a tour, too. -/
theorem tour_of_runs_stopSelected {flags : List Bool} {i : Nat} {outcome : Except Fault Unit}
    (h : Action.Runs (stopSelected ds (flags.drop i)) trace (outcome, ds')) :
    ∃ log answers, Log.trace log = trace ∧ Tour (stopStep flags) i ds log answers ds' ∧
      outcome = answers.map fun _ => () := by
  induction ds generalizing i trace outcome ds' with
  | nil =>
    obtain ⟨rfl, rfl, rfl⟩ := Action.runs_pure_pair_iff.mp h
    exact ⟨[], .ok [], rfl, .nil, rfl⟩
  | cons d rest ih =>
    rw [stopSelected_cons_drop] at h
    obtain ⟨turn, others, ⟨answer, d'⟩, rfl, hturn, hothers⟩ := Action.runs_bind_iff.mp h
    cases answer with
    | error fault =>
      obtain ⟨rfl, rfl, rfl⟩ := Action.runs_pure_pair_iff.mp hothers
      exact ⟨_, .error fault, by rw [trace_entries, List.append_nil], .failed hturn, rfl⟩
    | ok =>
      obtain ⟨pass, last, ⟨later, rest'⟩, rfl, hpass, hend⟩ := Action.runs_bind_iff.mp hothers
      obtain ⟨rfl, rfl, rfl⟩ := Action.runs_pure_pair_iff.mp hend
      obtain ⟨log, answers, rfl, htour, rfl⟩ := ih hpass
      exact ⟨_, _, by rw [trace_append, trace_entries, List.append_nil], .cons hturn htour,
        by cases answers <;> rfl⟩

/-- So is the restart pass of a supervisor, which changes nothing but its daemons. -/
theorem tour_of_runs_applyRestartPolicy {flags : List Bool} {s s' : Supervisor}
    {outcome : Except Fault Unit}
    (h : Action.Runs (s.applyRestartPolicy flags) trace (outcome, s')) :
    ∃ log answers ds', Log.trace log = trace ∧ Tour (stopStep flags) 0 s.daemons log answers ds' ∧
      s' = s.withDaemons ds' ∧ outcome = answers.map fun _ => () := by
  obtain ⟨pass, last, ⟨answer, ds'⟩, rfl, hpass, hend⟩ := Action.runs_bind_iff.mp h
  obtain ⟨rfl, rfl, rfl⟩ := Action.runs_pure_pair_iff.mp hend
  obtain ⟨log, answers, rfl, htour, rfl⟩ :=
    tour_of_runs_stopSelected (i := 0) (by rw [List.drop_zero]; exact hpass)
  exact ⟨log, answers, ds', (List.append_nil _).symm, htour, rfl, rfl⟩

/-! ## Who has a turn -/

variable {i : Nat} {log : Log} {answers : Except Fault (List α)}

/-- Everything in a tour belongs to a daemon from its first index on. -/
theorem Tour.party_eq (h : Tour step i ds log answers ds') :
    ∀ entry ∈ log, ∃ j, i ≤ j ∧ entry.1 = .daemon j := by
  induction h with
  | nil => nofun
  | failed _ =>
    intro entry hentry
    obtain ⟨e, -, rfl⟩ := List.mem_map.mp hentry
    exact ⟨_, Nat.le_refl _, rfl⟩
  | cons _ _ ih =>
    intro entry hentry
    rcases List.mem_append.mp hentry with hentry | hentry
    · obtain ⟨e, -, rfl⟩ := List.mem_map.mp hentry
      exact ⟨_, Nat.le_refl _, rfl⟩
    · obtain ⟨j, hj, hparty⟩ := ih entry hentry
      exact ⟨j, Nat.le_of_succ_le hj, hparty⟩

/-- Nobody else than the daemons has a turn in it. -/
theorem Tour.party_lt (h : Tour step i ds log answers ds') :
    ∀ entry ∈ log, ∀ j, entry.1 = .daemon j → j < i + ds.length := by
  have hself : ∀ {i j : Nat} {turn : List Exchange} {entry : Party × Exchange},
      entry ∈ entries (.daemon i) turn → entry.1 = .daemon j → i = j := by
    intro i j turn entry hentry hj
    obtain ⟨e, -, rfl⟩ := List.mem_map.mp hentry
    exact Party.daemon.inj hj
  induction h with
  | nil => nofun
  | failed _ =>
    intro entry hentry j hj
    obtain rfl := hself hentry hj
    simp
  | cons _ _ ih =>
    intro entry hentry j hj
    rw [List.length_cons]
    rcases List.mem_append.mp hentry with hentry | hentry
    · obtain rfl := hself hentry hj
      omega
    · have hlater := ih entry hentry j hj
      omega

/-- Nothing in a tour belongs to the loop. -/
theorem Tour.own_loop_eq_nil (h : Tour step i ds log answers ds') : log.own .loop = [] := by
  refine List.filterMap_eq_nil_iff.mpr fun entry hentry => ?_
  obtain ⟨j, -, hparty⟩ := h.party_eq entry hentry
  rw [hparty]
  rfl

/-- Nor to a daemon before the first. -/
theorem Tour.own_eq_nil_of_lt (h : Tour step i ds log answers ds') {j : Nat} (hj : j < i) :
    log.own (.daemon j) = [] := by
  refine List.filterMap_eq_nil_iff.mpr fun entry hentry => ?_
  obtain ⟨k, hk, hparty⟩ := h.party_eq entry hentry
  rw [hparty]
  refine if_neg fun hsame => ?_
  cases hsame
  omega

/-! ## How a pass ends -/

/-- Every daemon has had a turn that has succeeded. -/
structure Tour.Succeeds (step : Nat → Daemon → Action (Except Fault α × Daemon)) (i : Nat)
    (ds : List Daemon) (log : Log) (answers : List α) (ds' : List Daemon) : Prop where
  length_answers : answers.length = ds.length
  length_daemons : ds'.length = ds.length
  trace_eq : log.trace = (log.turns i ds.length).flatten
  turn : ∀ (k : Nat) d, ds[k]? = some d → ∃ a d', answers[k]? = some a ∧ ds'[k]? = some d' ∧
    Action.Runs (step (i + k) d) (log.own (.daemon (i + k))) (.ok a, d')

/-- So many daemons have had a turn that has succeeded, the turn of the next one has failed, and the
others have had none. -/
structure Tour.Fails (step : Nat → Daemon → Action (Except Fault α × Daemon)) (i : Nat)
    (ds : List Daemon) (log : Log) (fault : Fault) (count : Nat) (ds' : List Daemon) : Prop where
  length_daemons : ds'.length = ds.length
  trace_eq : log.trace = (log.turns i count).flatten ++ log.own (.daemon (i + count))
  earlier : ∀ (k : Nat) d, k < count → ds[k]? = some d → ∃ a d', ds'[k]? = some d' ∧
    Action.Runs (step (i + k) d) (log.own (.daemon (i + k))) (.ok a, d')
  failed : ∃ d d', ds[count]? = some d ∧ ds'[count]? = some d' ∧
    Action.Runs (step (i + count) d) (log.own (.daemon (i + count))) (.error fault, d')
  later : ∀ k, count < k → ds'[k]? = ds[k]?

section

variable {d d' : Daemon} {rest rest' : List Daemon} {turn : List Exchange} {a : α} {fault : Fault}

/-- The turn of a later daemon is its turn also where the first has had one before it. -/
theorem runs_of_later {k : Nat} {e : Daemon} {outcome : Except Fault α × Daemon}
    (hruns : Action.Runs (step (i + 1 + k) e) (log.own (.daemon (i + 1 + k))) outcome) :
    Action.Runs (step (i + (k + 1)) e)
      ((entries (.daemon i) turn ++ log).own (.daemon (i + (k + 1)))) outcome := by
  have hindex : i + (k + 1) = i + 1 + k := by omega
  rwa [hindex, own_entries_append_of_lt (by omega) turn log]

/-- One turn that succeeds before the turns of the others. -/
theorem Tour.Succeeds.cons {as : List α} (hturn : Action.Runs (step i d) turn (.ok a, d'))
    (hothers : log.own (.daemon i) = []) (h : Tour.Succeeds step (i + 1) rest log as rest') :
    Tour.Succeeds step i (d :: rest) (entries (.daemon i) turn ++ log) (a :: as) (d' :: rest') where
  length_answers := congrArg Nat.succ h.length_answers
  length_daemons := congrArg Nat.succ h.length_daemons
  trace_eq := by
    rw [trace_append, trace_entries, h.trace_eq, List.length_cons, turns_entries_append hothers,
      List.flatten_cons]
  turn := by
    intro k e he
    cases k with
    | zero =>
      obtain rfl : d = e := Option.some.inj he
      refine ⟨a, d', rfl, rfl, ?_⟩
      rwa [Nat.add_zero, own_append, own_entries_self, hothers, List.append_nil]
    | succ k =>
      obtain ⟨b, e', hb, he', hruns⟩ := h.turn k e he
      exact ⟨b, e', hb, he', runs_of_later hruns⟩

/-- One turn that fails. -/
theorem Tour.Fails.first (hturn : Action.Runs (step i d) turn (.error fault, d')) :
    Tour.Fails step i (d :: rest) (entries (.daemon i) turn) fault 0 (d' :: rest) where
  length_daemons := rfl
  trace_eq := by
    rw [trace_entries, Nat.add_zero, own_entries_self]
    rfl
  earlier := nofun
  failed := by
    refine ⟨d, d', rfl, rfl, ?_⟩
    rwa [Nat.add_zero, own_entries_self]
  later := by
    intro k hk
    cases k with
    | zero => cases hk
    | succ k => rfl

/-- One turn that succeeds before turns of which one fails. -/
theorem Tour.Fails.cons {count : Nat} (hturn : Action.Runs (step i d) turn (.ok a, d'))
    (hothers : log.own (.daemon i) = []) (h : Tour.Fails step (i + 1) rest log fault count rest') :
    Tour.Fails step i (d :: rest) (entries (.daemon i) turn ++ log) fault (count + 1)
      (d' :: rest') where
  length_daemons := congrArg Nat.succ h.length_daemons
  trace_eq := by
    rw [trace_append, trace_entries, h.trace_eq, turns_entries_append hothers, List.flatten_cons,
      List.append_assoc, Nat.add_right_comm i 1 count,
      own_entries_append_of_lt (by omega) turn log]
    rfl
  earlier := by
    intro k e hk he
    cases k with
    | zero =>
      obtain rfl : d = e := Option.some.inj he
      refine ⟨a, d', rfl, ?_⟩
      rwa [Nat.add_zero, own_append, own_entries_self, hothers, List.append_nil]
    | succ k =>
      obtain ⟨b, e', he', hruns⟩ := h.earlier k e (Nat.lt_of_succ_lt_succ hk) he
      exact ⟨b, e', he', runs_of_later hruns⟩
  failed := by
    obtain ⟨e, e', he, he', hruns⟩ := h.failed
    exact ⟨e, e', he, he', runs_of_later hruns⟩
  later := by
    intro k hk
    cases k with
    | zero => cases hk
    | succ k => exact h.later k (Nat.lt_of_succ_lt_succ hk)

end

/-- A tour gives every daemon a turn that succeeds, or it ends with a turn that fails. -/
theorem Tour.succeeds_or_fails (h : Tour step i ds log answers ds') :
    (∃ as, answers = .ok as ∧ Tour.Succeeds step i ds log as ds') ∨
    ∃ fault count, answers = .error fault ∧ Tour.Fails step i ds log fault count ds' := by
  induction h with
  | nil => exact .inl ⟨[], rfl, rfl, rfl, rfl, nofun⟩
  | failed hturn => exact .inr ⟨_, 0, rfl, .first hturn⟩
  | cons hturn htour ih =>
    have hothers := htour.own_eq_nil_of_lt (Nat.lt_succ_self _)
    rcases ih with ⟨as, rfl, hrest⟩ | ⟨fault, count, rfl, hrest⟩
    · exact .inl ⟨_, rfl, hrest.cons hturn hothers⟩
    · exact .inr ⟨fault, count + 1, rfl, hrest.cons hturn hothers⟩

theorem Tour.succeeds {as : List α} (h : Tour step i ds log (.ok as) ds') :
    Tour.Succeeds step i ds log as ds' := by
  rcases h.succeeds_or_fails with ⟨_, has, hsucceeds⟩ | ⟨_, _, hfault, -⟩
  · rwa [Except.ok.inj has]
  · cases hfault

theorem Tour.fails {fault : Fault} (h : Tour step i ds log (.error fault) ds') :
    ∃ count, Tour.Fails step i ds log fault count ds' := by
  rcases h.succeeds_or_fails with ⟨_, has, -⟩ | ⟨_, count, hfault, hfails⟩
  · cases has
  · exact ⟨count, by rwa [Except.error.inj hfault]⟩

/-- A tour whose steps cannot fail does not fail. -/
theorem Tour.eq_ok (h : Tour step i ds log answers ds')
    (hstep : ∀ i d turn answer d', Action.Runs (step i d) turn (answer, d') → ∃ a, answer = .ok a) :
    ∃ as, answers = .ok as := by
  rcases h.succeeds_or_fails with ⟨as, rfl, -⟩ | ⟨fault, count, rfl, hfails⟩
  · exact ⟨as, rfl⟩
  · obtain ⟨d, d', -, -, hruns⟩ := hfails.failed
    obtain ⟨a, ha⟩ := hstep _ _ _ _ _ hruns
    cases ha

/-! ## Stopping what is selected -/

/-- The turn of a daemon with its flag in a pass that stops what the restart policies select. -/
inductive StopTurn (d : Daemon) (flag : Bool) : List Exchange → Daemon → Prop
  | kept : d.restart.restarts flag = false → StopTurn d flag [] d
  | stopped {turn : List Exchange} {p : ManagedProcess} :
    d.restart.restarts flag = true → Stopped d.process turn (.ok ()) p →
    StopTurn d flag turn (d.withProcess p)

/-- A daemon that has a flag has such a turn, if the pass comes past it. -/
theorem stopTurn_of_runs_stopStep {flags : List Bool} {flag : Bool} {d d' : Daemon}
    {turn : List Exchange} (hflag : flags[i]? = some flag)
    (h : Action.Runs (stopStep flags i d) turn (.ok (), d')) : StopTurn d flag turn d' := by
  unfold stopStep at h
  rw [hflag, Option.any_some] at h
  split at h
  · rename_i hrestarts
    obtain ⟨p, hstopped, rfl⟩ := Daemon.stopped_of_runs_stop h
    exact .stopped hrestarts hstopped
  · rename_i hkept
    obtain ⟨rfl, -, rfl⟩ := Action.runs_pure_pair_iff.mp h
    exact .kept (Bool.eq_false_iff.mpr hkept)

/-! ## A report -/

/-- Asking for a process id cannot fail. -/
theorem exists_ok_of_runs_reportDaemon {d d' : Daemon} {turn : List Exchange}
    {answer : Except Fault Int} (h : Action.Runs (reportDaemon d) turn (answer, d')) :
    ∃ pid, answer = .ok pid := by
  obtain ⟨_, _, ⟨pid, _⟩, -, -, hend⟩ := Action.runs_bind_iff.mp h
  exact ⟨pid, (Action.runs_pure_pair_iff.mp hend).2.1⟩

end Supervisor

end DaemonKeeper
