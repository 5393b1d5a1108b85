import DaemonKeeper.Proofs.DaemonCycles
import Mathlib.Order.Bounds.Defs
set_option autoImplicit false

/-!
# How long a stop waits, and how it ends (SPEC §3.4)

A stop that finds its child alive twice and whose signal arrives asks for the child before its first
sleep and again after every sleep.  It ends with the first of these queries that sees the child end,
also if that is the one after the last sleep; if none of them does, it has slept as often as the
policy allows and reports so many checks.  Which query sees the end is up to the machine, so the
answers are taken as any sequence at all.
-/

namespace DaemonKeeper

open ManagedProcess

/-! ## Answers and sleeps -/

/-- What the exchange tells of a child. -/
def Exchange.answer? : Exchange → Option ChildStatus
  | ⟨.status _, reply⟩ => some reply
  | _ => none

/-- The answers to the status queries of a trace, in order. -/
def answers (trace : List Exchange) : List ChildStatus := trace.filterMap Exchange.answer?

theorem answers_append (trace rest : List Exchange) :
    answers (trace ++ rest) = answers trace ++ answers rest :=
  List.filterMap_append

/-- How long the exchange waits. -/
def Exchange.sleep? : Exchange → Option Duration
  | ⟨.sleep duration, _⟩ => some duration
  | _ => none

/-- The sleeps of a trace, in order. -/
def sleeps (trace : List Exchange) : List Duration := trace.filterMap Exchange.sleep?

theorem sleeps_append (trace rest : List Exchange) :
    sleeps (trace ++ rest) = sleeps trace ++ sleeps rest :=
  List.filterMap_append

/-- A list of answers is what a sequence has from a position on. -/
inductive Foretold (reply : Nat → ChildStatus) : Nat → List ChildStatus → Prop where
  | nil (n : Nat) : Foretold reply n []
  | cons {n : Nat} {rest : List ChildStatus} :
    Foretold reply (n + 1) rest → Foretold reply n (reply n :: rest)

theorem foretold_cons_iff {reply : Nat → ChildStatus} {n : Nat} {status : ChildStatus}
    {rest : List ChildStatus} :
    Foretold reply n (status :: rest) ↔ status = reply n ∧ Foretold reply (n + 1) rest := by
  constructor
  · intro h
    cases h with
    | cons hrest => exact ⟨rfl, hrest⟩
  · rintro ⟨rfl, hrest⟩
    exact .cons hrest

/-- The status queries of a trace are answered in turn from a sequence, and every signal arrives. -/
structure Scripted (reply : Nat → ChildStatus) (trace : List Exchange) : Prop where
  answered : Foretold reply 0 (answers trace)
  delivered : ∀ target signal outcome,
    ⟨.signal target signal, outcome⟩ ∈ trace → outcome = .ok ()

/-- The machine that goes by the sequence, of which it has used so many answers. -/
def scriptedMachine (reply : Nat → ChildStatus) (q : Request) (used : Nat) : q.Reply × Nat :=
  match q with
  | .status _ => (reply used, used + 1)
  | .signal _ _ => (.ok (), used)
  | .run _ _ => (.error (.io .notFound), used)
  | .readFile _ => (.error .notFound, used)
  | .isDirectory _ => (false, used)
  | .isExecutable _ => (false, used)
  | .createDirectory _ => (.error .notFound, used)
  | .writeFile _ _ => (.error .notFound, used)
  | .spawn _ _ => (.error .notFound, used)
  | .kill _ => (.ok (), used)
  | .sleep _ => ((), used)
  | .pause _ => (.elapsed, used)
  | .clock => (.ofSeconds 0, used)

/-- Whatever is done on it goes by the sequence. -/
theorem scripted_traceWith {α : Type} (reply : Nat → ChildStatus) (x : Action α) :
    Scripted reply (Action.traceWith (scriptedMachine reply) x 0) := by
  constructor
  · generalize 0 = used
    induction x generalizing used with
    | done a => exact .nil used
    | ask q k ih =>
      cases q with
      | status pid => exact .cons (ih _ (used + 1))
      | _ => exact ih _ used
  · generalize 0 = used
    intro target signal outcome hmem
    induction x generalizing used with
    | done a => cases hmem
    | ask q k ih =>
      rcases List.mem_cons.mp hmem with heq | hrest
      · cases q <;> cases heq
        rfl
      · exact ih _ _ hrest

/-! ## The exchanges of a stop -/

/-- So many rounds of waiting from a position of the sequence on, each a query and a sleep. -/
def rounds (pid : Nat) (interval : Duration) (reply : Nat → ChildStatus) :
    Nat → Nat → List Exchange
  | _, 0 => []
  | n, count + 1 =>
    ⟨.status pid, reply n⟩ :: ⟨.sleep interval, ()⟩ :: rounds pid interval reply (n + 1) count

theorem sleeps_rounds (pid : Nat) (interval : Duration) (reply : Nat → ChildStatus)
    (n count : Nat) : sleeps (rounds pid interval reply n count) = List.replicate count interval := by
  induction count generalizing n with
  | zero => rfl
  | succ count ih => exact congrArg (interval :: ·) (ih (n + 1))

theorem deeds_rounds (pid : Nat) (interval : Duration) (reply : Nat → ChildStatus)
    (n count : Nat) : deeds (rounds pid interval reply n count) = [] := by
  induction count generalizing n with
  | zero => rfl
  | succ count ih => exact ih (n + 1)

/-- Two queries, the signal, so many rounds of waiting, and the query after them. -/
def stopTrace (pid : Nat) (interval : Duration) (reply : Nat → ChildStatus) (count : Nat) :
    List Exchange :=
  [⟨.status pid, reply 0⟩, ⟨.status pid, reply 1⟩, ⟨.signal pid .terminate, .ok ()⟩] ++
    (rounds pid interval reply 2 count ++ [⟨.status pid, reply (2 + count)⟩])

theorem sleeps_stopTrace (pid : Nat) (interval : Duration) (reply : Nat → ChildStatus)
    (count : Nat) :
    sleeps (stopTrace pid interval reply count) = List.replicate count interval := by
  rw [stopTrace, sleeps_append, sleeps_append, sleeps_rounds]
  exact List.append_nil _

theorem deeds_stopTrace (pid : Nat) (interval : Duration) (reply : Nat → ChildStatus)
    (count : Nat) :
    deeds (stopTrace pid interval reply count) = [.signalled pid .terminate] := by
  rw [stopTrace, deeds_append, deeds_append, deeds_rounds]
  rfl

/-! ## Queries and waiting by the sequence -/

namespace ManagedProcess

variable {p p' q : ManagedProcess} {trace query : List Exchange} {rest : List ChildStatus}
  {reply : Nat → ChildStatus} {pid n : Nat}

/-- A query on a held child takes the next answer of the sequence, and lets go of the child if it
has ended. -/
theorem Asked.of_foretold {running : Bool} (hchild : p.child = some pid)
    (h : Asked p query running q) (hforetold : Foretold reply n (answers query ++ rest)) :
    query = [⟨.status pid, reply n⟩] ∧ Foretold reply (n + 1) rest ∧
      (reply n ≠ .exited ∧ running = true ∧ q = p ∨
        reply n = .exited ∧ running = false ∧ q = { p with child := none }) := by
  cases h with
  | idle hnone =>
    rw [hchild] at hnone
    cases hnone
  | ended hheld =>
    obtain rfl := Option.some.inj (hchild.symm.trans hheld)
    obtain ⟨hreply, hrest⟩ := foretold_cons_iff.mp hforetold
    exact ⟨by rw [hreply], hrest, .inr ⟨hreply.symm, rfl, rfl⟩⟩
  | kept hheld hreply =>
    obtain rfl := Option.some.inj (hchild.symm.trans hheld)
    obtain ⟨rfl, hrest⟩ := foretold_cons_iff.mp hforetold
    exact ⟨rfl, hrest, .inl ⟨hreply, rfl, rfl⟩⟩

/-- Waiting ends with the first query that sees the child end, after as many rounds as there were
queries before it, or else when the sleeps are used up. -/
theorem Awaited.of_foretold {remaining checks total : Nat} (hchild : p.child = some pid)
    (h : Awaited remaining checks p trace total q)
    (hforetold : Foretold reply n (answers trace ++ rest)) :
    (∃ j < remaining, reply (n + j) = .exited ∧ (∀ i < j, reply (n + i) ≠ .exited) ∧
      trace = rounds pid p.stopPolicy.pollInterval reply n j ++ [⟨.status pid, reply (n + j)⟩] ∧
      q = { p with child := none }) ∨
    (∀ i < remaining, reply (n + i) ≠ .exited) ∧ total = checks + remaining ∧
      trace = rounds pid p.stopPolicy.pollInterval reply n remaining ∧ q = p ∧
      Foretold reply (n + remaining) rest := by
  induction h generalizing n with
  | exhausted => exact .inr ⟨nofun, rfl, rfl, rfl, hforetold⟩
  | ended hasked =>
    obtain ⟨rfl, -, ⟨-, hruns, -⟩ | ⟨hexited, -, rfl⟩⟩ := hasked.of_foretold hchild hforetold
    · cases hruns
    · exact .inl ⟨0, Nat.succ_pos _, hexited, nofun, rfl, rfl⟩
  | @slept remaining checks total p q r first later hasked hwait ih =>
    rw [answers_append, List.append_assoc] at hforetold
    obtain ⟨rfl, hlater, ⟨halive, -, rfl⟩ | ⟨-, hruns, -⟩⟩ := hasked.of_foretold hchild hforetold
    · -- Query `i` from here on is query `i + 1` of the whole wait.
      have hshift : ∀ i, n + 1 + i = n + (i + 1) := fun i => by omega
      have hbefore : ∀ {j : Nat}, (∀ i < j, reply (n + 1 + i) ≠ .exited) →
          ∀ i < j + 1, reply (n + i) ≠ .exited := by
        intro j hlate i hi
        cases i with
        | zero => exact halive
        | succ i => exact hshift i ▸ hlate i (Nat.lt_of_succ_lt_succ hi)
      rcases ih hchild hlater with ⟨j, hj, hexited, hlate, rfl, rfl⟩ | ⟨hlate, rfl, rfl, rfl, hrest⟩
      · refine .inl ⟨j + 1, Nat.succ_lt_succ hj, hshift j ▸ hexited, hbefore hlate, ?_, rfl⟩
        rw [hshift]
        rfl
      · exact .inr ⟨hbefore hlate, by omega, rfl, rfl, hshift remaining ▸ hrest⟩
    · cases hruns

/-- The last query after waiting sees the child end, unless an earlier one has; so the child is
known to have ended if and only if the query after some sleep that was allowed for sees it. -/
theorem Awaited.last_of_foretold {remaining checks : Nat} {r : ManagedProcess} {still : Bool}
    {last : List Exchange} (hchild : p.child = some pid)
    (hwait : Awaited remaining 0 p trace checks q) (hlast : Asked q last still r)
    (hforetold : Foretold reply n (answers (trace ++ last))) :
    ∃ j ≤ remaining, (∀ i < j, reply (n + i) ≠ .exited) ∧
      trace ++ last =
        rounds pid p.stopPolicy.pollInterval reply n j ++ [⟨.status pid, reply (n + j)⟩] ∧
      (reply (n + j) = .exited ∧ still = false ∧ r = { p with child := none } ∨
        reply (n + j) ≠ .exited ∧ still = true ∧ j = remaining ∧ checks = remaining ∧ r = p) := by
  rw [answers_append] at hforetold
  rcases hwait.of_foretold hchild hforetold with ⟨j, hj, hexited, hlate, rfl, rfl⟩ |
    ⟨hlate, hchecks, rfl, rfl, hrest⟩
  · -- The child was let go while it was waited for, and nobody is asked.
    obtain ⟨rfl, rfl, rfl⟩ : last = [] ∧ still = false ∧ r = { p with child := none } := by
      cases hlast with
      | idle _ => exact ⟨rfl, rfl, rfl⟩
      | ended hheld => cases hheld
      | kept hheld _ => cases hheld
    exact ⟨j, Nat.le_of_lt hj, hlate, List.append_nil _, .inl ⟨hexited, rfl, rfl⟩⟩
  · rw [← List.append_nil (answers last)] at hrest
    obtain ⟨rfl, -, ⟨halive, rfl, rfl⟩ | ⟨hexited, rfl, rfl⟩⟩ := hlast.of_foretold hchild hrest
    · exact ⟨remaining, Nat.le_refl _, hlate, rfl, .inr ⟨halive, rfl, rfl, by omega, rfl⟩⟩
    · exact ⟨remaining, Nat.le_refl _, hlate, rfl, .inl ⟨hexited, rfl, rfl⟩⟩

/-! ## The whole stop -/

/-- A stop that finds its child alive twice, and whose signal arrives. -/
theorem Stopped.of_scripted {outcome : Except Fault Unit} (hchild : p.child = some pid)
    (h : Stopped p trace outcome p') (hscript : Scripted reply trace)
    (hfirst : reply 0 ≠ .exited) (hsecond : reply 1 ≠ .exited) :
    ∃ j ≤ p.stopPolicy.maxChecks, (∀ i < j, reply (2 + i) ≠ .exited) ∧
      trace = stopTrace pid p.stopPolicy.pollInterval reply j ∧
      (reply (2 + j) = .exited ∧ outcome = .ok () ∧ p' = { p with child := none } ∨
        reply (2 + j) ≠ .exited ∧ j = p.stopPolicy.maxChecks ∧
          outcome = .error (.stopTimeout p.label pid p.stopPolicy.maxChecks) ∧ p' = p) := by
  have hanswered := hscript.answered
  -- Every branch but the idle one begins with the same two queries.
  have hbegin : ∀ {first second rest : List Exchange} {running : Bool} {q r : ManagedProcess},
      trace = first ++ (second ++ ⟨.signal r.toldPid .terminate, .ok ()⟩ :: rest) →
      Asked p first true q → Asked q second running r →
      r = p ∧ Foretold reply 2 (answers rest) ∧ trace =
        [⟨.status pid, reply 0⟩, ⟨.status pid, reply 1⟩, ⟨.signal pid .terminate, .ok ()⟩] ++
          rest := by
    intro first second rest running q r htrace hquery hagain
    rw [htrace, answers_append, answers_append] at hanswered
    obtain ⟨rfl, hnext, ⟨-, -, rfl⟩ | ⟨-, hruns, -⟩⟩ := hquery.of_foretold hchild hanswered
    · obtain ⟨rfl, hrest, ⟨-, -, rfl⟩ | ⟨hexited, -, -⟩⟩ := hagain.of_foretold hchild hnext
      · have htold : r.toldPid = pid := by rw [toldPid, hchild]
        exact ⟨rfl, hrest, by rw [htrace, htold]; rfl⟩
      · exact absurd hexited hsecond
    · cases hruns
  cases h with
  | idle hquery =>
    rw [← List.append_nil (answers trace)] at hanswered
    obtain ⟨-, -, ⟨-, hruns, -⟩ | ⟨hexited, -, -⟩⟩ := hquery.of_foretold hchild hanswered
    · cases hruns
    · exact absurd hexited hfirst
  | @refused first second _ _ _ cause _ _ =>
    have hmem : ⟨.signal p'.toldPid .terminate, .error cause⟩ ∈
        first ++ (second ++ [⟨.signal p'.toldPid .terminate, .error cause⟩]) := by simp
    cases hscript.delivered _ _ _ hmem
  | ended hquery hagain hwait hlast =>
    obtain ⟨rfl, hrest, htrace⟩ := hbegin rfl hquery hagain
    obtain ⟨j, hj, hlate, hwaited, ⟨hexited, -, rfl⟩ | ⟨-, hstill, -⟩⟩ :=
      hwait.last_of_foretold hchild hlast hrest
    · exact ⟨j, hj, hlate, htrace.trans (congrArg (_ ++ ·) hwaited), .inl ⟨hexited, rfl, rfl⟩⟩
    · cases hstill
  | timedOut hquery hagain hwait hlast =>
    obtain ⟨rfl, hrest, htrace⟩ := hbegin rfl hquery hagain
    obtain ⟨j, hj, hlate, hwaited, ⟨-, hstill, -⟩ | ⟨halive, -, rfl, rfl, rfl⟩⟩ :=
      hwait.last_of_foretold hchild hlast hrest
    · cases hstill
    · have htold : p'.toldPid = pid := by rw [toldPid, hchild]
      exact ⟨_, hj, hlate, htrace.trans (congrArg (_ ++ ·) hwaited),
        .inr ⟨halive, rfl, by rw [htold], rfl⟩⟩

/-- A stop whose first query finds nothing running is over with that query. -/
theorem Stopped.of_idle {outcome : Except Fault Unit} (h : Stopped p trace outcome p')
    (hscript : Scripted reply trace) (hidle : p.child = none ∨ reply 0 = .exited) :
    outcome = .ok () ∧ p'.child = none ∧ deeds trace = [] ∧ sleeps trace = [] := by
  -- No query can have found the child running.
  have hnever : ∀ {first rest : List Exchange} {q : ManagedProcess},
      trace = first ++ rest → ¬ Asked p first true q := by
    intro first rest q htrace hquery
    cases hquery with
    | kept hchild hreply =>
      have hanswered := hscript.answered
      rw [htrace, answers_append] at hanswered
      obtain ⟨hreply', -⟩ := foretold_cons_iff.mp hanswered
      rcases hidle with hnone | hexited
      · rw [hchild] at hnone
        cases hnone
      · exact hreply (hreply'.trans hexited)
  cases h with
  | idle hquery =>
    refine ⟨rfl, hquery.child_eq_none, hquery.deeds_eq_nil, ?_⟩
    cases hquery <;> rfl
  | refused hquery _ => exact absurd hquery (hnever rfl)
  | ended hquery _ _ _ => exact absurd hquery (hnever rfl)
  | timedOut hquery _ _ _ => exact absurd hquery (hnever rfl)

/-! ## The counter -/

/-- Waiting with its counter of 32 bits, which is compared with the limit before each query.  There
is no count if the counter overflows. -/
def countedAwait (limit counter : UInt32) (p : ManagedProcess) :
    Action (Option Nat × ManagedProcess) :=
  if _hmore : counter < limit then do
    let (running, p) ← p.isRunning
    if running then
      Action.request (.sleep p.stopPolicy.pollInterval)
      if hroom : counter.toNat + 1 < Word.bound32 then countedAwait limit (counter + 1) p
      else return (none, p)
    else return (some counter.toNat, p)
  else return (some counter.toNat, p)
termination_by limit.toNat - counter.toNat
decreasing_by
  have hless : counter.toNat < limit.toNat := UInt32.lt_iff_toNat_lt.mp _hmore
  have hnext : (counter + 1).toNat = counter.toNat + 1 := by
    rw [UInt32.toNat_add]
    exact Nat.mod_eq_of_lt hroom
  omega

/-- The counter does not overflow, and counts the sleeps. -/
theorem countedAwait_eq {limit counter : UInt32} (h : counter ≤ limit) (p : ManagedProcess) :
    countedAwait limit counter p =
      (fun (checks, p) => (some checks, p)) <$>
        awaitExit (limit.toNat - counter.toNat) counter.toNat p := by
  generalize hremaining : limit.toNat - counter.toNat = remaining
  have hlimit : limit.toNat < Word.bound32 := limit.toNat_lt
  have hle : counter.toNat ≤ limit.toNat := UInt32.le_iff_toNat_le.mp h
  induction remaining generalizing counter p with
  | zero =>
    have hlast : ¬ counter < limit := by
      rw [UInt32.lt_iff_toNat_lt]
      omega
    rw [countedAwait, dif_neg hlast]
    rfl
  | succ remaining ih =>
    have hmore : counter < limit := by
      rw [UInt32.lt_iff_toNat_lt]
      omega
    have hroom : counter.toNat + 1 < Word.bound32 := by omega
    have hnext : (counter + 1).toNat = counter.toNat + 1 := by
      rw [UInt32.toNat_add]
      exact Nat.mod_eq_of_lt hroom
    rw [countedAwait, dif_pos hmore, awaitExit, map_bind]
    refine congrArg (p.isRunning >>= ·) (funext fun ⟨running, p⟩ => ?_)
    cases running with
    | false => rfl
    | true =>
      have hle' : counter + 1 ≤ limit := by
        rw [UInt32.le_iff_toNat_le, hnext]
        omega
      simp only [if_true, dif_pos hroom, map_bind]
      rw [ih hle' p (by omega) (by omega), hnext]

/-! ## Main statement -/

/-- However the status queries are answered, if only the signal arrives: there is such a run.  If
the child is alive at the first two queries, it gets one signal to end and no other, and the
exchanges are known.  The stop succeeds if and only if the query after some number of sleeps up to
the limit of the policy sees the child end; then it has slept the least such number of times and
holds nothing.  Otherwise it has slept as often as the limit says, reports so many checks and holds
the child still.  If the first query finds nothing running, nothing is signalled and nothing waited
for.  No limit of 32 bits makes the counter of the checks overflow. -/
theorem stop_ends_with_first_exit (p : ManagedProcess) (reply : Nat → ChildStatus) :
    (∃ trace outcome p', Action.Runs p.stop trace (outcome, p') ∧ Scripted reply trace) ∧
    (∀ trace outcome p', Action.Runs p.stop trace (outcome, p') → Scripted reply trace →
      (∀ pid, p.child = some pid → reply 0 ≠ .exited → reply 1 ≠ .exited →
        deeds trace = [.signalled pid .terminate] ∧
        (outcome = .ok () ↔ ∃ j ≤ p.stopPolicy.maxChecks, reply (2 + j) = .exited) ∧
        (∀ j ≤ p.stopPolicy.maxChecks, IsLeast {j | reply (2 + j) = .exited} j →
          trace = stopTrace pid p.stopPolicy.pollInterval reply j ∧
          sleeps trace = List.replicate j p.stopPolicy.pollInterval ∧
          p' = { p with child := none }) ∧
        ((∀ j ≤ p.stopPolicy.maxChecks, reply (2 + j) ≠ .exited) →
          trace = stopTrace pid p.stopPolicy.pollInterval reply p.stopPolicy.maxChecks ∧
          sleeps trace = List.replicate p.stopPolicy.maxChecks p.stopPolicy.pollInterval ∧
          outcome = .error (.stopTimeout p.label pid p.stopPolicy.maxChecks) ∧ p' = p)) ∧
      (p.child = none ∨ reply 0 = .exited →
        outcome = .ok () ∧ p'.child = none ∧ deeds trace = [] ∧ sleeps trace = [])) ∧
    ∀ limit : UInt32, countedAwait limit 0 p =
      (fun (checks, q) => (some checks, q)) <$> awaitExit limit.toNat 0 p := by
  refine ⟨?_, ?_, fun limit => countedAwait_eq UInt32.zero_le p⟩
  · exact ⟨_, _, _, Action.runs_traceWith (scriptedMachine reply) p.stop 0,
      scripted_traceWith reply p.stop⟩
  intro trace outcome p' hruns hscript
  have hstopped := stopped_of_runs_stop hruns
  refine ⟨fun pid hchild hfirst hsecond => ?_, hstopped.of_idle hscript⟩
  obtain ⟨k, hk, hlate, rfl, hend⟩ := hstopped.of_scripted hchild hscript hfirst hsecond
  have hdeeds := deeds_stopTrace pid p.stopPolicy.pollInterval reply k
  have hsleeps := sleeps_stopTrace pid p.stopPolicy.pollInterval reply k
  rcases hend with ⟨hexited, rfl, rfl⟩ | ⟨halive, rfl, rfl, rfl⟩
  · refine ⟨hdeeds, iff_of_true rfl ⟨k, hk, hexited⟩, fun j _ hj => ?_, fun hnever => ?_⟩
    · obtain rfl : k = j :=
        Nat.le_antisymm (Nat.not_lt.mp fun hlt => hlate j hlt hj.1) (hj.2 hexited)
      exact ⟨rfl, hsleeps, rfl⟩
    · exact absurd hexited (hnever k hk)
  · have hnever : ∀ j ≤ p'.stopPolicy.maxChecks, reply (2 + j) ≠ .exited := by
      intro j hj
      rcases Nat.lt_or_eq_of_le hj with hlt | rfl
      · exact hlate j hlt
      · exact halive
    refine ⟨hdeeds, iff_of_false nofun ?_, fun j hj hleast => ?_,
      fun _ => ⟨rfl, hsleeps, rfl, rfl⟩⟩
    · rintro ⟨j, hj, hexited⟩
      exact hnever j hj hexited
    · exact absurd hleast.1 (hnever j hj)

/-- A child that takes its time: it is seen to end only after the last sleep that is allowed for,
and two of the queries before that fail. -/
def lateReplies (n : Nat) : ChildStatus :=
  if n = 1 ∨ n = 4 then .unknown else if n < 7 then .alive else .exited

/-- An exit during the last sleep counts. -/
theorem stop_ends_with_first_exit_at_last_query :
    ∃ trace p', Action.Runs (stop { label := "d", child := some 7 }) trace (.ok (), p') ∧
      trace = stopTrace 7 (Duration.ofSeconds 1) lateReplies 5 ∧ p'.child = none := by
  obtain ⟨⟨trace, outcome, p', hruns, hscript⟩, hall, -⟩ :=
    stop_ends_with_first_exit { label := "d", child := some 7 } lateReplies
  have hleast : IsLeast {j | lateReplies (2 + j) = .exited} 5 := by
    refine ⟨rfl, fun j hj => Nat.not_lt.mp fun hlt => ?_⟩
    have hnever : ∀ i < 5, lateReplies (2 + i) ≠ .exited := by decide
    exact hnever j hlt hj
  obtain ⟨-, hok, hended, -⟩ := (hall trace outcome p' hruns hscript).1 7 rfl (by decide) (by decide)
  obtain ⟨htrace, -, rfl⟩ := hended 5 (Nat.le_refl 5) hleast
  obtain rfl := hok.mpr ⟨5, Nat.le_refl 5, rfl⟩
  exact ⟨trace, _, hruns, htrace, rfl⟩

end ManagedProcess

end DaemonKeeper
