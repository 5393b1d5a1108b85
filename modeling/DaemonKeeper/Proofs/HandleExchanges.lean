import DaemonKeeper.Proofs.LivingChild
import DaemonKeeper.Proofs.TaskRequests
set_option autoImplicit false

/-!
# The exchanges of a handle (SPEC §3.4)

A handle asks for, signals and kills the child that it holds and no other, and it asks for a new one
only while it holds none.  The one signal that may go elsewhere is sent after a query that let the
child go; it goes to the process id of nothing.  Every operation keeps to that, whatever the machine
replies, and a stop that is given up has waited as long as the policy says.
-/

namespace DaemonKeeper

/-- The child that the exchange asks to be killed. -/
def Exchange.killed? : Exchange → Option Nat
  | ⟨.kill pid, _⟩ => some pid
  | _ => none

/-- Nothing is asked to be killed. -/
def NoKills (trace : List Exchange) : Prop := ∀ e ∈ trace, e.killed? = none

namespace NoKills

variable {trace rest : List Exchange}

theorem nil : NoKills [] := nofun

theorem append (h : NoKills trace) (h' : NoKills rest) : NoKills (trace ++ rest) := by
  intro e he
  rcases List.mem_append.mp he with he | he
  · exact h e he
  · exact h' e he

theorem cons {e : Exchange} (he : e.killed? = none) (h : NoKills rest) : NoKills (e :: rest) := by
  intro e' he'
  rcases List.mem_cons.mp he' with rfl | he'
  · exact he
  · exact h e' he'

/-- What is not about processes kills none. -/
theorem of_processFree (h : ∀ e ∈ trace, e.request.aboutProcess = false) : NoKills trace := by
  intro e he
  have hfree := h e he
  obtain ⟨request, reply⟩ := e
  cases request with
  | kill pid => cases hfree
  | _ => rfl

end NoKills

namespace ManagedProcess

/-- The process id that is told where this child is held. -/
def told : Option Nat → Int
  | some pid => pid
  | none => notRunningPid

theorem toldPid_eq (p : ManagedProcess) : p.toldPid = told p.child := by
  unfold toldPid told
  cases p.child <;> rfl

/-- A process id is told for a child only if it is that child's. -/
theorem told_eq_iff {held : Option Nat} {pid : Nat} : told held = pid ↔ held = some pid := by
  cases held with
  | none => simp [told, notRunningPid]
  | some pid' =>
    simp only [told, Option.some.injEq]
    omega

/-- What a handle that holds `held` may exchange with the machine. -/
def Proper (held : Option Nat) : Exchange → Prop
  | ⟨.spawn _ _, _⟩ => held = none
  | ⟨.status pid, _⟩ => held = some pid
  | ⟨.signal target signal, _⟩ => target = told held ∧ signal = .terminate
  | ⟨.kill pid, _⟩ => held = some pid
  | _ => True

/-- Everybody may exchange what is not about processes, and holds the same after it. -/
theorem proper_of_processFree (first : Option Nat) {e : Exchange}
    (he : e.request.aboutProcess = false) : Proper first e ∧ holdsAfter first e = first := by
  obtain ⟨request, reply⟩ := e
  cases request with
  | spawn | status | signal | kill => cases he
  | _ => cases first <;> simp [Proper, holdsAfter, Exchange.spawned?, Exchange.ended?]

/-- The same for each exchange in turn, with what is held when it comes to it. -/
def AllProper : Option Nat → List Exchange → Prop
  | _, [] => True
  | first, e :: rest => Proper first e ∧ AllProper (holdsAfter first e) rest

/-- A trace is proper if and only if its two parts are, the second from where the first ends. -/
theorem allProper_append {first : Option Nat} {trace rest : List Exchange} :
    AllProper first (trace ++ rest) ↔
      AllProper first trace ∧ AllProper (held first trace) rest := by
  induction trace generalizing first with
  | nil => simp [AllProper]
  | cons e trace ih => simp only [List.cons_append, AllProper, held_cons, ih, and_assoc]

/-- A handle that deals with its own child only asks for a new one only while it holds none. -/
theorem AllProper.orderly {first : Option Nat} {trace : List Exchange} (h : AllProper first trace) :
    Orderly first trace := by
  induction trace generalizing first with
  | nil => trivial
  | cons e trace ih =>
    refine ⟨fun hstarts => ?_, ih h.2⟩
    obtain ⟨request, reply⟩ := e
    cases request with
    | spawn executable arguments => exact h.1
    | _ => cases hstarts

/-- An operation with its trace and the handle after it: the handle dealt with its own child only,
it holds what its trace says, and it will go on waiting as long as before. -/
structure KeepsToChild (p : ManagedProcess) (trace : List Exchange) (p' : ManagedProcess) :
    Prop where
  proper : AllProper p.child trace
  child_eq : p'.child = held p.child trace
  stopPolicy_eq : p'.stopPolicy = p.stopPolicy

namespace KeepsToChild

variable {p q r : ManagedProcess} {trace rest : List Exchange}

theorem refl (p : ManagedProcess) : KeepsToChild p [] p := ⟨trivial, rfl, rfl⟩

/-- Two operations in turn are one. -/
theorem append (h : KeepsToChild p trace q) (h' : KeepsToChild q rest r) :
    KeepsToChild p (trace ++ rest) r where
  proper := by
    have hrest := h'.proper
    rw [h.child_eq] at hrest
    exact allProper_append.mpr ⟨h.proper, hrest⟩
  child_eq := by
    rw [held_append, ← h.child_eq]
    exact h'.child_eq
  stopPolicy_eq := h'.stopPolicy_eq.trans h.stopPolicy_eq

/-- One exchange that is proper and keeps what is held. -/
theorem cons_of_kept {e : Exchange} (hproper : Proper p.child e)
    (hkept : holdsAfter p.child e = p.child) (h : KeepsToChild p rest q) :
    KeepsToChild p (e :: rest) q where
  proper := by
    refine ⟨hproper, ?_⟩
    rw [hkept]
    exact h.proper
  child_eq := by
    rw [held_cons, hkept]
    exact h.child_eq
  stopPolicy_eq := h.stopPolicy_eq

/-- What is not about processes does not concern the handle. -/
theorem cons {e : Exchange} (he : e.request.aboutProcess = false) (h : KeepsToChild p rest q) :
    KeepsToChild p (e :: rest) q := by
  obtain ⟨hproper, hkept⟩ := proper_of_processFree p.child he
  exact h.cons_of_kept hproper hkept

theorem of_processFree (h : ∀ e ∈ trace, e.request.aboutProcess = false) :
    KeepsToChild p trace p := by
  induction trace with
  | nil => exact .refl p
  | cons e rest ih =>
    exact .cons (h e List.mem_cons_self) (ih fun e' he' => h e' (List.mem_cons_of_mem e he'))

end KeepsToChild

/-! ## The operations -/

variable {p p' : ManagedProcess} {trace : List Exchange}

/-- A query is about the held child. -/
theorem Asked.keepsToChild {running : Bool} (h : Asked p trace running p') :
    KeepsToChild p trace p' := by
  have htracks := h.tracks
  cases h with
  | idle _ => exact .refl p
  | ended hchild => exact ⟨⟨hchild, trivial⟩, htracks.child_eq, rfl⟩
  | kept hchild _ => exact ⟨⟨hchild, trivial⟩, htracks.child_eq, rfl⟩

theorem Asked.noKills {running : Bool} (h : Asked p trace running p') : NoKills trace := by
  cases h with
  | idle _ => exact .nil
  | ended _ => exact .cons rfl .nil
  | kept _ _ => exact .cons rfl .nil

/-- A start asks for a child only after a query that leaves nothing held. -/
theorem Started.keepsToChild {executable : Path} {arguments : List String}
    {outcome : Except Fault Unit} (h : Started p executable arguments trace outcome p') :
    KeepsToChild p trace p' := by
  cases h with
  | notExecutable => exact .cons rfl (.refl p)
  | alreadyRunning hfirst hsecond =>
    exact .cons rfl (hfirst.keepsToChild.append hsecond.keepsToChild)
  | refused hasked =>
    have hnone := hasked.child_eq_none
    refine .cons rfl (hasked.keepsToChild.append ⟨⟨hnone, trivial⟩, ?_, rfl⟩)
    rw [hnone]
    rfl
  | spawned hasked =>
    have hnone := hasked.child_eq_none
    exact .cons rfl (hasked.keepsToChild.append ⟨⟨hnone, trivial⟩, rfl, rfl⟩)

theorem Started.noKills {executable : Path} {arguments : List String}
    {outcome : Except Fault Unit} (h : Started p executable arguments trace outcome p') :
    NoKills trace := by
  cases h with
  | notExecutable => exact .cons rfl .nil
  | alreadyRunning hfirst hsecond => exact .cons rfl (hfirst.noKills.append hsecond.noKills)
  | refused hasked => exact .cons rfl (hasked.noKills.append (.cons rfl .nil))
  | spawned hasked => exact .cons rfl (hasked.noKills.append (.cons rfl .nil))

/-- Waiting is queries and sleeps. -/
theorem Awaited.keepsToChild {remaining checks total : Nat}
    (h : Awaited remaining checks p trace total p') : KeepsToChild p trace p' := by
  induction h with
  | exhausted => exact .refl _
  | ended hasked => exact hasked.keepsToChild
  | slept hasked _ ih => exact hasked.keepsToChild.append (.cons rfl ih)

theorem Awaited.noKills {remaining checks total : Nat}
    (h : Awaited remaining checks p trace total p') : NoKills trace := by
  induction h with
  | exhausted => exact .nil
  | ended hasked => exact hasked.noKills
  | slept hasked _ ih => exact hasked.noKills.append (.cons rfl ih)

/-- The signal of a stop goes to what the second query tells. -/
theorem keepsToChild_signal {q r s : ManagedProcess} {first second rest : List Exchange}
    {running running' : Bool} {reply : Except IoFault Unit} (hfirst : Asked p first running q)
    (hsecond : Asked q second running' r) (hrest : KeepsToChild r rest s) :
    KeepsToChild p (first ++ (second ++ ⟨.signal r.toldPid .terminate, reply⟩ :: rest)) s := by
  refine hfirst.keepsToChild.append (hsecond.keepsToChild.append ?_)
  refine hrest.cons_of_kept ⟨r.toldPid_eq, rfl⟩ ?_
  cases r.child <;> simp [holdsAfter, Exchange.spawned?, Exchange.ended?]

/-- A stop signals only then. -/
theorem Stopped.keepsToChild {outcome : Except Fault Unit} (h : Stopped p trace outcome p') :
    KeepsToChild p trace p' := by
  cases h with
  | idle hasked => exact hasked.keepsToChild
  | refused hfirst hsecond => exact keepsToChild_signal hfirst hsecond (.refl p')
  | ended hfirst hsecond hwait hlast =>
    exact keepsToChild_signal hfirst hsecond (hwait.keepsToChild.append hlast.keepsToChild)
  | timedOut hfirst hsecond hwait hlast =>
    exact keepsToChild_signal hfirst hsecond (hwait.keepsToChild.append hlast.keepsToChild)

theorem Stopped.noKills {outcome : Except Fault Unit} (h : Stopped p trace outcome p') :
    NoKills trace := by
  cases h with
  | idle hasked => exact hasked.noKills
  | refused hfirst hsecond => exact hfirst.noKills.append (hsecond.noKills.append (.cons rfl .nil))
  | ended hfirst hsecond hwait hlast =>
    have hwaited := hwait.noKills.append hlast.noKills
    exact hfirst.noKills.append (hsecond.noKills.append (.cons rfl hwaited))
  | timedOut hfirst hsecond hwait hlast =>
    have hwaited := hwait.noKills.append hlast.noKills
    exact hfirst.noKills.append (hsecond.noKills.append (.cons rfl hwaited))

/-- A kill is of the held child. -/
theorem Killed.keepsToChild {outcome : Except Fault Unit} (h : Killed p trace outcome p') :
    KeepsToChild p trace p' := by
  have htracks := h.tracks
  cases h with
  | idle _ => exact .refl p
  | refused hchild => exact ⟨⟨hchild, trivial⟩, htracks.child_eq, rfl⟩
  | ended hchild => exact ⟨⟨hchild, trivial⟩, htracks.child_eq, rfl⟩

/-- A kill that succeeds leaves nothing held. -/
theorem Killed.child_eq_none (h : Killed p trace (.ok ()) p') : p'.child = none := by
  cases h with
  | idle hchild => exact hchild
  | ended _ => rfl

/-! ## Stops that are given up -/

/-- So many queries about a child, none of which says that it has ended, with a sleep after each. -/
inductive Watched (pid : Nat) (interval : Duration) : Nat → List Exchange → Prop
  | nil : Watched pid interval 0 []
  | cons {n : Nat} {reply : ChildStatus} {rest : List Exchange} :
    reply ≠ .exited → Watched pid interval n rest →
    Watched pid interval (n + 1) (⟨.status pid, reply⟩ :: ⟨.sleep interval, ()⟩ :: rest)

/-- The child was signalled, and was not seen to end in any of the checks of the policy, nor in the
query after them. -/
inductive Overdue (policy : StopPolicy) (pid : Nat) : List Exchange → Prop
  | intro {first second last : ChildStatus} {watch : List Exchange} :
    first ≠ .exited → second ≠ .exited → Watched pid policy.pollInterval policy.maxChecks watch →
    last ≠ .exited →
    Overdue policy pid (⟨.status pid, first⟩ :: ⟨.status pid, second⟩ ::
      ⟨.signal pid .terminate, .ok ()⟩ :: (watch ++ [⟨.status pid, last⟩]))

/-- A child that runs is asked for by one exchange, and kept. -/
theorem Asked.running_of_child {pid : Nat} (hchild : p.child = some pid)
    (h : Asked p trace true p') :
    ∃ reply, reply ≠ ChildStatus.exited ∧ trace = [⟨.status pid, reply⟩] ∧ p' = p := by
  obtain ⟨reply, htrace, hreply, -⟩ := h.of_child hchild
  exact ⟨reply, hreply.mp rfl, htrace, h.eq_of_running⟩

/-- A handle that waited and holds a child has watched it all the time. -/
theorem Awaited.watched {remaining checks total pid : Nat} (hchild : p'.child = some pid)
    (h : Awaited remaining checks p trace total p') :
    Watched pid p.stopPolicy.pollInterval remaining trace ∧ p' = p ∧
      total = checks + remaining := by
  induction h with
  | exhausted => exact ⟨.nil, rfl, rfl⟩
  | ended hasked =>
    rw [hasked.child_eq_none] at hchild
    cases hchild
  | @slept remaining checks total p q r first rest hasked _ ih =>
    obtain ⟨hwatched, hsame, htotal⟩ := ih hchild
    obtain rfl := hasked.eq_of_running
    rw [hsame] at hchild
    obtain ⟨reply, hreply, rfl, -⟩ := hasked.running_of_child hchild
    exact ⟨.cons hreply hwatched, hsame, by omega⟩

/-- A stop that ends for want of time has signalled the child that it holds, and waited for it as
long as the policy says. -/
theorem Stopped.overdue {label : String} {target : Int} {checks : Nat}
    (h : Stopped p trace (.error (.stopTimeout label target checks)) p') :
    ∃ pid, p.child = some pid ∧ p' = p ∧ Overdue p.stopPolicy pid trace := by
  cases h with
  | @timedOut first second third last running checks q r s _ hfirst hsecond hwait hlast =>
    obtain rfl := hlast.eq_of_running
    obtain rfl := hfirst.eq_of_running
    have hsome : p'.child.isSome = true := hlast.isSome_child
    obtain ⟨pid, hpid⟩ := Option.isSome_iff_exists.mp hsome
    obtain ⟨hwatched, rfl, -⟩ := hwait.watched hpid
    -- The child is still held in the end, so the second query did not let it go.
    have hrunning : running = true := hsecond.isSome_child.symm.trans hsome
    subst hrunning
    obtain rfl := hsecond.eq_of_running
    obtain ⟨first, hfirst', rfl, -⟩ := hfirst.running_of_child hpid
    obtain ⟨second, hsecond', rfl, -⟩ := hsecond.running_of_child hpid
    obtain ⟨last, hlast', rfl, -⟩ := hlast.running_of_child hpid
    have htold : p'.toldPid = pid := by rw [toldPid_eq, hpid, told]
    rw [htold]
    exact ⟨pid, hpid, rfl, .intro hfirst' hsecond' hwatched hlast'⟩

end ManagedProcess

end DaemonKeeper
