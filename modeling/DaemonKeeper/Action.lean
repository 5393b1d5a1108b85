import DaemonKeeper.Request
set_option autoImplicit false

/-!
# Actions

An action is a finite dialogue with the machine: it asks, goes on by the reply, and ends with a
result.  What an action does is its trace, the requests with their replies in order.  `Runs` says
which traces and results are possible when the machine may reply anything; `runWith` carries an
action out against a machine that is given.
-/

namespace DaemonKeeper

/-- A dialogue with the machine that ends with a result. -/
inductive Action (α : Type) : Type where
  | done (result : α)
  | ask (request : Request) (next : request.Reply → Action α)

/-- A request with the reply it got. -/
structure Exchange where
  request : Request
  reply : request.Reply

namespace Action

variable {α β : Type}

/-- One request, whose reply is the result. -/
def request (q : Request) : Action q.Reply := .ask q .done

/-- First one action, then another that depends on its result. -/
protected def bind : Action α → (α → Action β) → Action β
  | .done a, next => next a
  | .ask q k, next => .ask q fun reply => (k reply).bind next

instance : Monad Action where
  pure := .done
  bind := Action.bind

@[simp] theorem done_bind (a : α) (next : α → Action β) : (Action.done a >>= next) = next a := rfl

@[simp] theorem pure_eq_done (a : α) : (pure a : Action α) = .done a := rfl

@[simp] theorem ask_bind (q : Request) (k : q.Reply → Action α) (next : α → Action β) :
    (Action.ask q k >>= next) = .ask q fun reply => k reply >>= next := rfl

theorem bind_done (x : Action α) : (x >>= Action.done) = x := by
  induction x with
  | done a => rfl
  | ask q k ih => simp only [ask_bind, ih]

theorem bind_assoc {γ : Type} (x : Action α) (f : α → Action β) (g : β → Action γ) :
    (x >>= f >>= g) = (x >>= fun a => f a >>= g) := by
  induction x with
  | done a => rfl
  | ask q k ih => simp only [ask_bind, ih]

instance : LawfulMonad Action :=
  LawfulMonad.mk' Action (fun x => bind_done x) (fun _ _ => rfl) bind_assoc

/-! ## Traces -/

/-- The action can have this trace and this result. -/
inductive Runs : Action α → List Exchange → α → Prop where
  | done (a : α) : Runs (.done a) [] a
  | ask {q : Request} {k : q.Reply → Action α} (reply : q.Reply) {trace : List Exchange} {a : α} :
    Runs (k reply) trace a → Runs (.ask q k) (⟨q, reply⟩ :: trace) a

@[simp] theorem runs_done_iff {a b : α} {trace : List Exchange} :
    Runs (.done a) trace b ↔ trace = [] ∧ b = a := by
  constructor
  · rintro ⟨⟩; exact ⟨rfl, rfl⟩
  · rintro ⟨rfl, rfl⟩; exact .done _

theorem runs_ask_iff {q : Request} {k : q.Reply → Action α} {trace : List Exchange} {a : α} :
    Runs (.ask q k) trace a ↔
      ∃ reply rest, trace = ⟨q, reply⟩ :: rest ∧ Runs (k reply) rest a := by
  constructor
  · intro h
    cases h with
    | ask reply h => exact ⟨reply, _, rfl, h⟩
  · rintro ⟨reply, rest, rfl, h⟩; exact .ask reply h

/-- The trace of two actions in turn is the one trace after the other. -/
theorem runs_bind_iff {x : Action α} {f : α → Action β} {trace : List Exchange} {b : β} :
    Runs (x >>= f) trace b ↔
      ∃ first second a, trace = first ++ second ∧ Runs x first a ∧ Runs (f a) second b := by
  induction x generalizing trace with
  | done a =>
    simp only [done_bind, runs_done_iff]
    constructor
    · intro h; exact ⟨[], trace, a, rfl, ⟨rfl, rfl⟩, h⟩
    · rintro ⟨_, _, _, rfl, ⟨rfl, rfl⟩, h⟩; exact h
  | ask q k ih =>
    simp only [ask_bind, runs_ask_iff, ih]
    constructor
    · rintro ⟨reply, rest, rfl, first, second, a, rfl, h1, h2⟩
      exact ⟨⟨q, reply⟩ :: first, second, a, rfl, ⟨reply, first, rfl, h1⟩, h2⟩
    · rintro ⟨first, second, a, rfl, ⟨reply, rest, rfl, h1⟩, h2⟩
      exact ⟨reply, rest ++ second, rfl, rest, second, a, rfl, h1, h2⟩

/-! ## Carrying out -/

/-- Carries out an action against a machine with a state. -/
def runWith {σ : Type} (machine : (q : Request) → σ → q.Reply × σ) : Action α → σ → α × σ
  | .done a, s => (a, s)
  | .ask q k, s => runWith machine (k (machine q s).1) (machine q s).2

/-- Carries out an action in a monad that answers requests. -/
def runM {m : Type → Type} [Monad m] (answer : (q : Request) → m q.Reply) : Action α → m α
  | .done a => pure a
  | .ask q k => do runM answer (k (← answer q))

end Action

/-! ## Tasks -/

/-- An action that may end in a fault. -/
abbrev Task (α : Type) := ExceptT Fault Action α

namespace Task

variable {α : Type}

/-- One request that cannot fail. -/
def request (q : Request) : Task q.Reply := ExceptT.lift (Action.request q)

/-- An action whose refusal by the machine is a fault. -/
def ofIo (x : Action (Except IoFault α)) : Task α :=
  ExceptT.mk (x >>= fun reply => .done (reply.mapError Fault.io))

/-- Runs a command in a directory. -/
def run (directory : Path) (command : Command) : Task Output :=
  ExceptT.mk (Action.request (.run directory command))

/-- A fault instead of a result. -/
def fail (fault : Fault) : Task α := ExceptT.mk (.done (.error fault))

/-- The outcome as a result, whether it is a fault or not. -/
def attempt (t : Task α) : Action (Except Fault α) := ExceptT.run t

end Task

end DaemonKeeper
