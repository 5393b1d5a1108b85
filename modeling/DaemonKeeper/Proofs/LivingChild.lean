import DaemonKeeper.Proofs.ProcessRuns
set_option autoImplicit false

/-!
# At most one living child for each handle (SPEC §2)

A handle starts children, asks for them, stops and kills them.  Children end whenever they like, and
the machine may fail to start one, to tell how one is, to signal it or to wait for it.  Nothing of
that makes the handle lose a child that lives or start a second one beside it.

The argument has two halves.  Every operation of a handle is *orderly*: it starts a child only while
it holds none, and lets a child go only by an exchange that confirms its end.  And in every history
in which confirmations are true, an orderly handle has at most one living child, the one it holds.
-/

namespace DaemonKeeper

/-! ## What an exchange says about children -/

/-- The exchange asks for a new child. -/
def Exchange.startsChild : Exchange → Bool
  | ⟨.spawn _ _, _⟩ => true
  | _ => false

/-- The child that the exchange has brought into being, if it has. -/
def Exchange.spawned? : Exchange → Option Nat
  | ⟨.spawn _ _, .ok pid⟩ => some pid
  | _ => none

/-- The child whose end the exchange confirms: a query has taken its exit status, or it was killed
and waited for. -/
def Exchange.ended? : Exchange → Option Nat
  | ⟨.status pid, .exited⟩ => some pid
  | ⟨.kill pid, .ok ()⟩ => some pid
  | _ => none

/-- Only an exchange that asks for a child brings one into being. -/
theorem Exchange.startsChild_of_spawned? {e : Exchange} {pid : Nat} (h : e.spawned? = some pid) :
    e.startsChild = true := by
  obtain ⟨request, reply⟩ := e
  cases request with
  | spawn executable arguments => rfl
  | _ => cases h

/-- So an exchange that asks for none brings none into being. -/
theorem Exchange.spawned?_eq_none {e : Exchange} (h : e.startsChild = false) :
    e.spawned? = none := by
  cases hspawned : e.spawned? with
  | none => rfl
  | some pid =>
    rw [Exchange.startsChild_of_spawned? hspawned] at h
    cases h

namespace ManagedProcess

/-! ## Orderly traces -/

/-- What a handle that held `first` holds after an exchange: the child that was started, or nothing
once the end of its child is confirmed. -/
def holdsAfter (first : Option Nat) (e : Exchange) : Option Nat :=
  match e.spawned? with
  | some pid => some pid
  | none => if first.isSome ∧ e.ended? = first then none else first

/-- What a handle that held `first` holds after a trace. -/
def held (first : Option Nat) (trace : List Exchange) : Option Nat := trace.foldl holdsAfter first

/-- A child is asked for only while nothing is held. -/
def Orderly : Option Nat → List Exchange → Prop
  | _, [] => True
  | first, e :: rest => (e.startsChild = true → first = none) ∧ Orderly (holdsAfter first e) rest

@[simp] theorem held_nil (first : Option Nat) : held first [] = first := rfl

@[simp] theorem held_cons (first : Option Nat) (e : Exchange) (rest : List Exchange) :
    held first (e :: rest) = held (holdsAfter first e) rest := rfl

/-- What is held after two traces is what the second makes of what the first has left. -/
theorem held_append (first : Option Nat) (trace rest : List Exchange) :
    held first (trace ++ rest) = held (held first trace) rest :=
  List.foldl_append

/-- A trace is orderly if and only if its two parts are, the second from where the first ends. -/
theorem orderly_append {first : Option Nat} {trace rest : List Exchange} :
    Orderly first (trace ++ rest) ↔ Orderly first trace ∧ Orderly (held first trace) rest := by
  induction trace generalizing first with
  | nil => simp [Orderly]
  | cons e trace ih => simp only [List.cons_append, Orderly, held_cons, ih, and_assoc]

/-- The operation was orderly, and the handle holds what its trace says. -/
structure Tracks (p : ManagedProcess) (trace : List Exchange) (p' : ManagedProcess) : Prop where
  orderly : Orderly p.child trace
  child_eq : p'.child = held p.child trace

namespace Tracks

variable {p q r : ManagedProcess} {trace rest : List Exchange}

theorem refl (p : ManagedProcess) : Tracks p [] p := ⟨trivial, rfl⟩

/-- Two orderly operations in turn are one. -/
theorem append (h : Tracks p trace q) (h' : Tracks q rest r) : Tracks p (trace ++ rest) r where
  orderly := orderly_append.mpr ⟨h.orderly, h.child_eq ▸ h'.orderly⟩
  child_eq := by
    rw [held_append, ← h.child_eq]
    exact h'.child_eq

/-- An exchange in front that is not about children changes nothing. -/
theorem cons {e : Exchange} (hstart : e.startsChild = false) (hend : e.ended? = none)
    (h : Tracks p rest q) : Tracks p (e :: rest) q := by
  have hholds : holdsAfter p.child e = p.child := by
    unfold holdsAfter
    rw [Exchange.spawned?_eq_none hstart, hend]
    cases p.child <;> simp
  refine ⟨⟨fun hs => ?_, ?_⟩, ?_⟩
  · rw [hstart] at hs
    cases hs
  · rw [hholds]
    exact h.orderly
  · rw [held_cons, hholds]
    exact h.child_eq

end Tracks

/-! ## The operations are orderly -/

variable {p p' : ManagedProcess} {trace : List Exchange}

/-- A query lets the child go only when it confirms its end. -/
theorem Asked.tracks {running : Bool} (h : Asked p trace running p') : Tracks p trace p' := by
  cases h with
  | idle _ => exact .refl p
  | @ended pid hchild =>
    refine ⟨⟨nofun, trivial⟩, ?_⟩
    simp [holdsAfter, Exchange.spawned?, Exchange.ended?, hchild]
  | @kept pid reply hchild hreply =>
    refine .cons rfl ?_ (.refl p)
    cases reply with
    | exited => exact absurd rfl hreply
    | alive => rfl
    | unknown => rfl

/-- A query starts nothing. -/
theorem Asked.spawned?_eq_none {running : Bool} (h : Asked p trace running p') :
    ∀ e ∈ trace, e.spawned? = none := by
  cases h <;> simp [Exchange.spawned?]

/-- A child is asked for only after a query that leaves nothing held. -/
theorem tracks_spawn {q : ManagedProcess} {executable : Path} {arguments : List String}
    {reply : Except IoFault Nat} (h : Asked p trace false q) :
    Tracks p (trace ++ [⟨.spawn executable arguments, reply⟩])
      { q with child := Exchange.spawned? ⟨.spawn executable arguments, reply⟩ } := by
  refine h.tracks.append ⟨⟨fun _ => h.child_eq_none, trivial⟩, ?_⟩
  rw [h.child_eq_none]
  cases reply with
  | ok pid => rfl
  | error cause => rfl

/-- A start asks for a child only after a query that leaves nothing held. -/
theorem Started.tracks {executable : Path} {arguments : List String}
    {outcome : Except Fault Unit} (h : Started p executable arguments trace outcome p') :
    Tracks p trace p' := by
  cases h with
  | notExecutable => exact .cons rfl rfl (.refl p)
  | alreadyRunning hfirst hsecond => exact .cons rfl rfl (hfirst.tracks.append hsecond.tracks)
  | refused hasked =>
    have hnone : p' = { p' with child := none } := by rw [← hasked.child_eq_none]
    rw [hnone]
    exact .cons rfl rfl (tracks_spawn hasked)
  | spawned hasked => exact .cons rfl rfl (tracks_spawn hasked)

/-- A start that ends in a fault has started nothing. -/
theorem Started.spawned?_eq_none {executable : Path} {arguments : List String} {fault : Fault}
    (h : Started p executable arguments trace (.error fault) p') :
    ∀ e ∈ trace, e.spawned? = none := by
  cases h with
  | notExecutable => simp [Exchange.spawned?]
  | alreadyRunning hfirst hsecond =>
    simp only [List.mem_cons, List.mem_append]
    rintro e (rfl | he | he)
    · rfl
    · exact hfirst.spawned?_eq_none e he
    · exact hsecond.spawned?_eq_none e he
  | refused hasked =>
    simp only [List.mem_cons, List.mem_append, List.not_mem_nil, or_false]
    rintro e (rfl | he | rfl)
    · rfl
    · exact hasked.spawned?_eq_none e he
    · rfl

/-- Waiting is queries and sleeps. -/
theorem Awaited.tracks {remaining checks total : Nat}
    (h : Awaited remaining checks p trace total p') : Tracks p trace p' := by
  induction h with
  | exhausted => exact .refl _
  | ended hasked => exact hasked.tracks
  | slept hasked _ ih => exact hasked.tracks.append (.cons rfl rfl ih)

/-- Signals are not about children, so the handle is where the two queries left it. -/
theorem tracks_signal {q r s : ManagedProcess} {first second rest : List Exchange}
    {running running' : Bool} {target : Int} {reply : Except IoFault Unit}
    (hfirst : Asked p first running q) (hsecond : Asked q second running' r)
    (hrest : Tracks r rest s) :
    Tracks p (first ++ (second ++ ⟨.signal target .terminate, reply⟩ :: rest)) s :=
  hfirst.tracks.append (hsecond.tracks.append (.cons rfl rfl hrest))

/-- A stop lets the child go by one of its queries or not at all. -/
theorem Stopped.tracks {outcome : Except Fault Unit} (h : Stopped p trace outcome p') :
    Tracks p trace p' := by
  cases h with
  | idle hasked => exact hasked.tracks
  | refused hfirst hsecond => exact tracks_signal hfirst hsecond (.refl p')
  | ended hfirst hsecond hwait hlast =>
    exact tracks_signal hfirst hsecond (hwait.tracks.append hlast.tracks)
  | timedOut hfirst hsecond hwait hlast =>
    exact tracks_signal hfirst hsecond (hwait.tracks.append hlast.tracks)

/-- A kill lets the child go when the machine has waited for its end. -/
theorem Killed.tracks {outcome : Except Fault Unit} (h : Killed p trace outcome p') :
    Tracks p trace p' := by
  cases h with
  | idle _ => exact .refl p
  | refused _ => exact .cons rfl rfl (.refl p)
  | @ended pid hchild =>
    refine ⟨⟨nofun, trivial⟩, ?_⟩
    simp [holdsAfter, Exchange.spawned?, Exchange.ended?, hchild]

/-! ## Sequences of calls -/

/-- Something that is asked of a handle. -/
inductive Call where
  | start (executable : Path) (arguments : List String)
  | isRunning
  | pid
  | stop
  | kill

/-- Carries out a call. -/
def Call.perform : Call → ManagedProcess → Action (Except Fault Unit × ManagedProcess)
  | .start executable arguments, p => p.start executable arguments
  | .isRunning, p => do
    let (_, p) ← p.isRunning
    return (.ok (), p)
  | .pid, p => do
    let (_, p) ← p.pid
    return (.ok (), p)
  | .stop, p => p.stop
  | .kill, p => p.kill

/-- Carries out calls in turn, whether they succeed or not. -/
def performAll : List Call → ManagedProcess → Action ManagedProcess
  | [], p => pure p
  | call :: rest, p => do
    let (_, p) ← call.perform p
    performAll rest p

/-- Whatever is asked of a handle, it is orderly. -/
theorem tracks_of_runs_perform {call : Call} {outcome : Except Fault Unit}
    (h : Action.Runs (call.perform p) trace (outcome, p')) : Tracks p trace p' := by
  cases call with
  | start executable arguments => exact (started_of_runs_start h).tracks
  | isRunning =>
    obtain ⟨first, second, ⟨running, q⟩, rfl, hasked, hend⟩ := Action.runs_bind_iff.mp h
    obtain ⟨rfl, rfl, rfl⟩ := Action.runs_pure_pair_iff.mp hend
    rw [List.append_nil]
    exact (asked_of_runs_isRunning hasked).tracks
  | pid =>
    obtain ⟨first, second, ⟨pid, q⟩, rfl, hasked, hend⟩ := Action.runs_bind_iff.mp h
    obtain ⟨rfl, rfl, rfl⟩ := Action.runs_pure_pair_iff.mp hend
    obtain ⟨⟨running, hasked⟩, -⟩ := asked_of_runs_pid hasked
    rw [List.append_nil]
    exact hasked.tracks
  | stop => exact (stopped_of_runs_stop h).tracks
  | kill => exact (killed_of_runs_kill h).tracks

/-- So are any number of calls in turn. -/
theorem tracks_of_runs_performAll {calls : List Call}
    (h : Action.Runs (performAll calls p) trace p') : Tracks p trace p' := by
  induction calls generalizing p trace with
  | nil =>
    obtain ⟨rfl, rfl⟩ := Action.runs_pure_iff.mp h
    exact .refl p'
  | cons call rest ih =>
    obtain ⟨first, second, ⟨outcome, q⟩, rfl, hcall, hrest⟩ := Action.runs_bind_iff.mp h
    exact (tracks_of_runs_perform hcall).append (ih hrest)

/-! ## Histories -/

/-- A moment in the life of a handle: it exchanges something with the machine, or a child ends. -/
inductive Event where
  | exchange (e : Exchange)
  | exit (pid : Nat)

/-- What the handle has exchanged in a history. -/
def exchanges : List Event → List Exchange
  | [] => []
  | .exchange e :: rest => e :: exchanges rest
  | .exit _ :: rest => exchanges rest

/-- The living children after an event. -/
def livingAfter (alive : List Nat) : Event → List Nat
  | .exchange e => e.spawned?.toList ++ alive
  | .exit pid => alive.erase pid

/-- The living children after a history that began with `alive`. -/
def living (alive : List Nat) (history : List Event) : List Nat :=
  history.foldl livingAfter alive

/-- No end is confirmed of a child that is alive. -/
def Truthful : List Nat → List Event → Prop
  | _, [] => True
  | alive, .exchange e :: rest =>
    (∀ pid ∈ e.ended?, pid ∉ alive) ∧ Truthful (livingAfter alive (.exchange e)) rest
  | alive, .exit pid :: rest => Truthful (livingAfter alive (.exit pid)) rest

theorem exchanges_append (before after : List Event) :
    exchanges (before ++ after) = exchanges before ++ exchanges after := by
  induction before with
  | nil => rfl
  | cons event before ih => cases event <;> simp [exchanges, ih]

/-- At most one child is alive, and it is the one that is held. -/
structure OnlyHeld (alive : List Nat) (first : Option Nat) : Prop where
  atMostOne : alive.length ≤ 1
  isHeld : ∀ pid ∈ alive, first = some pid

namespace OnlyHeld

variable {alive : List Nat} {first : Option Nat}

theorem nil : OnlyHeld [] first := ⟨Nat.zero_le 1, nofun⟩

/-- With nothing held, no child is alive. -/
theorem eq_nil (h : OnlyHeld alive none) : alive = [] :=
  List.eq_nil_iff_forall_not_mem.mpr fun pid hpid => nomatch h.isHeld pid hpid

/-- The end of a child leaves the others held. -/
theorem exit (h : OnlyHeld alive first) (pid : Nat) : OnlyHeld (alive.erase pid) first where
  atMostOne := Nat.le_trans (alive.length_erase_le) h.atMostOne
  isHeld := fun q hq => h.isHeld q (List.mem_of_mem_erase hq)

/-- A truthful exchange of an orderly handle leaves only the held child alive. -/
theorem exchange {e : Exchange} (h : OnlyHeld alive first)
    (horderly : e.startsChild = true → first = none) (htruthful : ∀ pid ∈ e.ended?, pid ∉ alive) :
    OnlyHeld (livingAfter alive (.exchange e)) (holdsAfter first e) := by
  simp only [livingAfter, holdsAfter]
  cases hspawned : e.spawned? with
  | some pid =>
    obtain rfl := horderly (Exchange.startsChild_of_spawned? hspawned)
    rw [h.eq_nil]
    exact ⟨Nat.le_refl 1, by simp⟩
  | none =>
    refine ⟨h.atMostOne, fun pid hpid => ?_⟩
    have hheld : first = some pid := h.isHeld pid hpid
    rw [if_neg]
    · exact hheld
    · rintro ⟨-, hended⟩
      exact htruthful pid (hended.trans hheld) hpid

end OnlyHeld

/-- If only the held child lives, then so at every moment of an orderly and truthful history. -/
theorem onlyHeld_at_moment {history moment : List Event} {alive : List Nat} {first : Option Nat}
    (h : OnlyHeld alive first) (horderly : Orderly first (exchanges history))
    (htruthful : Truthful alive history) (hmoment : moment <+: history) :
    OnlyHeld (living alive moment) (held first (exchanges moment)) := by
  induction history generalizing moment alive first with
  | nil =>
    obtain rfl := List.prefix_nil.mp hmoment
    exact h
  | cons event rest ih =>
    cases moment with
    | nil => exact h
    | cons event' moment =>
      obtain ⟨rfl, hrest⟩ := List.cons_prefix_cons.mp hmoment
      cases event' with
      | exchange e =>
        have hlater := ih (h.exchange horderly.1 htruthful.1) horderly.2 htruthful.2 hrest
        exact hlater
      | exit pid =>
        have hlater := ih (h.exit pid) horderly htruthful hrest
        exact hlater

/-- A child is let go only by an exchange that confirms its end. -/
theorem held_eq_or_ended {pid : Nat} (h : Orderly (some pid) trace) :
    held (some pid) trace = some pid ∨ ∃ e ∈ trace, e.ended? = some pid := by
  induction trace with
  | nil => exact .inl rfl
  | cons e rest ih =>
    have hspawned : e.spawned? = none := by
      refine Exchange.spawned?_eq_none (Bool.eq_false_iff.mpr fun hstart => ?_)
      cases h.1 hstart
    by_cases hended : e.ended? = some pid
    · exact .inr ⟨e, List.mem_cons_self, hended⟩
    · have hkeeps : holdsAfter (some pid) e = some pid := by simp [holdsAfter, hspawned, hended]
      have hrest := h.2
      rw [hkeeps] at hrest
      rw [held_cons, hkeeps]
      rcases ih hrest with hheld | ⟨e', hmem, he'⟩
      · exact .inl hheld
      · exact .inr ⟨e', List.mem_cons_of_mem e hmem, he'⟩

/-! ## The handle and its children -/

/-- Whatever is asked of a fresh handle, in whatever order, and whenever its children end:

* at every moment at most one child is alive, and it is the one that the handle holds;
* what the handle holds is what its exchanges say, so a child is let go only when its end is
  confirmed;
* a child is asked for only while none is held and none is alive, so a query that failed is never
  followed by a second child;
* no call loses a child whose end it has not confirmed; and
* a start that ends in a fault has started nothing.
-/
theorem one_living_child {label : String} {policy : StopPolicy} {calls : List Call}
    {history : List Event} {p : ManagedProcess}
    (hruns : Action.Runs (performAll calls { label, stopPolicy := policy }) (exchanges history) p)
    (htruthful : Truthful [] history) :
    (∀ moment, moment <+: history →
      OnlyHeld (living [] moment) (held none (exchanges moment))) ∧
    p.child = held none (exchanges history) ∧
    (∀ before e after, history = before ++ .exchange e :: after → e.startsChild = true →
      held none (exchanges before) = none ∧ living [] before = []) ∧
    (∀ call trace outcome p', Action.Runs (Call.perform call p) trace (outcome, p') →
      ∀ pid, p.child = some pid → p'.child = some pid ∨ ∃ e ∈ trace, e.ended? = some pid) ∧
    (∀ executable arguments trace fault p',
      Action.Runs (p.start executable arguments) trace (.error fault, p') →
        ∀ e ∈ trace, e.spawned? = none) := by
  have htracks := tracks_of_runs_performAll hruns
  have hmoments : ∀ moment, moment <+: history →
      OnlyHeld (living [] moment) (held none (exchanges moment)) :=
    fun moment hmoment => onlyHeld_at_moment .nil htracks.orderly htruthful hmoment
  refine ⟨hmoments, htracks.child_eq, ?_, ?_, ?_⟩
  · intro before e after hhistory hstart
    have horderly := htracks.orderly
    rw [hhistory, exchanges_append, orderly_append] at horderly
    have hnone : held none (exchanges before) = none := horderly.2.1 hstart
    have honlyHeld := hmoments before ⟨_, hhistory.symm⟩
    rw [hnone] at honlyHeld
    exact ⟨hnone, honlyHeld.eq_nil⟩
  · intro call trace outcome p' hcall pid hchild
    have hcallTracks := tracks_of_runs_perform hcall
    have horderly := hcallTracks.orderly
    rw [hcallTracks.child_eq]
    rw [hchild] at horderly ⊢
    exact held_eq_or_ended horderly
  · intro executable arguments trace fault p' hstart
    exact (started_of_runs_start hstart).spawned?_eq_none

/-- A service is started, a query fails, a second start and a stop and a kill fail, the service
ends, a start fails, and the next one succeeds. -/
def restartCalls : List Call :=
  [.start ⟨"/srv/d"⟩ [], .isRunning, .start ⟨"/srv/d"⟩ [], .stop, .kill, .start ⟨"/srv/d"⟩ [],
    .start ⟨"/srv/d"⟩ []]

/-- What happens meanwhile. -/
def restartHistory : List Event :=
  [.exchange ⟨.isExecutable ⟨"/srv/d"⟩, true⟩, .exchange ⟨.spawn ⟨"/srv/d"⟩ [], .ok 7⟩,
    .exchange ⟨.status 7, .unknown⟩,
    .exchange ⟨.isExecutable ⟨"/srv/d"⟩, true⟩, .exchange ⟨.status 7, .alive⟩,
    .exchange ⟨.status 7, .unknown⟩,
    .exchange ⟨.status 7, .alive⟩, .exchange ⟨.status 7, .alive⟩,
    .exchange ⟨.signal 7 .terminate, .error .notPermitted⟩,
    .exchange ⟨.kill 7, .error .noSuchProcess⟩, .exit 7,
    .exchange ⟨.isExecutable ⟨"/srv/d"⟩, true⟩, .exchange ⟨.status 7, .exited⟩,
    .exchange ⟨.spawn ⟨"/srv/d"⟩ [], .error .execFormat⟩,
    .exchange ⟨.isExecutable ⟨"/srv/d"⟩, true⟩, .exchange ⟨.spawn ⟨"/srv/d"⟩ [], .ok 9⟩]

/-- After all of that, the second child is the only one alive, and it is held. -/
theorem one_living_child_restart :
    Action.Runs (performAll restartCalls { label := "d" }) (exchanges restartHistory)
      { label := "d", child := some 9 } ∧
    Truthful [] restartHistory ∧
    OnlyHeld (living [] restartHistory) (some 9) := by
  have hruns : Action.Runs (performAll restartCalls { label := "d" }) (exchanges restartHistory)
      { label := "d", child := some 9 } := Action.runs_of_replay rfl
  have htruthful : Truthful [] restartHistory := by
    simp [restartHistory, Truthful, Exchange.ended?, livingAfter, Exchange.spawned?]
  have honlyHeld := one_living_child hruns htruthful
  exact ⟨hruns, htruthful, honlyHeld.1 restartHistory (List.prefix_refl _)⟩

end ManagedProcess

end DaemonKeeper
