import DaemonKeeper.Action
set_option autoImplicit false

/-!
# Traces of composed dialogues

The trace of a dialogue splits wherever the dialogue was composed.  The splitting laws below are all
that later modules need to know about traces: a request puts its exchange in front of what follows,
and a dialogue that asks for nothing has no trace.

A trace can also be checked: `replay` carries a dialogue out against the replies of a trace and
answers its result if the trace is one of that dialogue.  On a machine that is given, what a
dialogue does is one of its runs, and a task goes on from where its first part has left the machine.
-/

namespace DaemonKeeper

namespace Action

variable {α β σ : Type}

/-- A dialogue that begins with a request has the exchange in front of what follows. -/
theorem runs_request_bind_iff {q : Request} {f : q.Reply → Action β} {trace : List Exchange}
    {b : β} :
    Runs (request q >>= f) trace b ↔
      ∃ reply rest, trace = ⟨q, reply⟩ :: rest ∧ Runs (f reply) rest b := by
  unfold request
  rw [ask_bind, runs_ask_iff]
  rfl

/-- A dialogue that is one request has the exchange as its trace and the reply as its result. -/
theorem runs_request_iff {q : Request} {trace : List Exchange} {reply : q.Reply} :
    Runs (request q) trace reply ↔ trace = [⟨q, reply⟩] := by
  unfold request
  rw [runs_ask_iff]
  constructor
  · rintro ⟨answer, rest, rfl, h⟩
    obtain ⟨rfl, rfl⟩ := runs_done_iff.mp h
    rfl
  · rintro rfl
    exact ⟨reply, [], rfl, .done reply⟩

/-- A dialogue that asks for nothing ends at once with its result. -/
theorem runs_pure_iff {a b : α} {trace : List Exchange} :
    Runs (pure a : Action α) trace b ↔ trace = [] ∧ b = a := by
  rw [pure_eq_done]
  exact runs_done_iff

/-- The same where the result is a pair. -/
theorem runs_pure_pair_iff {a c : α} {b d : β} {trace : List Exchange} :
    Runs (pure (a, b) : Action (α × β)) trace (c, d) ↔ trace = [] ∧ c = a ∧ d = b := by
  rw [runs_pure_iff, Prod.mk.injEq]

/-- A dialogue without a trace is over at once. -/
theorem runs_nil_iff {x : Action α} {a : α} : Runs x [] a ↔ x = .done a := by
  constructor
  · intro h
    cases h
    rfl
  · rintro rfl
    exact .done a

/-- What was exchanged determines the result. -/
theorem runs_unique {x : Action α} {trace : List Exchange} {a b : α} (ha : Runs x trace a)
    (hb : Runs x trace b) : a = b := by
  induction ha with
  | done a => exact (runs_done_iff.mp hb).2.symm
  | ask reply _ ih =>
    obtain ⟨reply', rest, htrace, hrest⟩ := runs_ask_iff.mp hb
    obtain ⟨he, rfl⟩ := List.cons.inj htrace
    cases he
    exact ih hrest

/-- After a first part with a given trace, what is left of the trace is that of the second part. -/
theorem runs_of_runs_bind {x : Action α} {f : α → Action β} {first second : List Exchange} {a : α}
    {b : β} (hx : Runs x first a) (h : Runs (x >>= f) (first ++ second) b) :
    Runs (f a) second b := by
  induction hx with
  | done a => exact h
  | ask reply _ ih =>
    obtain ⟨reply', rest, htrace, hrest⟩ := runs_ask_iff.mp h
    obtain ⟨he, rfl⟩ := List.cons.inj htrace
    cases he
    exact ih hrest

/-! ## Checking a trace -/

/-- Carries a dialogue out against the replies of a trace; none if the trace asks for something
else, is too short or is too long. -/
def replay : Action α → List Exchange → Option α
  | .done a, [] => some a
  | .done _, _ :: _ => none
  | .ask _ _, [] => none
  | .ask q k, e :: rest =>
    if h : e.request = q then replay (k (h ▸ e.reply)) rest else none

/-- A trace that can be replayed is a trace of the dialogue. -/
theorem runs_of_replay {x : Action α} {trace : List Exchange} {a : α}
    (h : replay x trace = some a) : Runs x trace a := by
  induction x generalizing trace with
  | done b =>
    cases trace with
    | nil => cases h; exact .done _
    | cons e rest => cases h
  | ask q k ih =>
    cases trace with
    | nil => cases h
    | cons e rest =>
      unfold replay at h
      split at h
      · rename_i hq
        obtain ⟨request, reply⟩ := e
        cases hq
        exact .ask reply (ih reply h)
      · cases h

/-! ## The trace on a given machine -/

/-- What is exchanged when an action is carried out against a machine with a state. -/
def traceWith (machine : (q : Request) → σ → q.Reply × σ) : Action α → σ → List Exchange
  | .done _, _ => []
  | .ask q k, s =>
    ⟨q, (machine q s).1⟩ :: traceWith machine (k (machine q s).1) (machine q s).2

/-- Carrying out an action is one of its possible runs. -/
theorem runs_traceWith (machine : (q : Request) → σ → q.Reply × σ) (x : Action α) (s : σ) :
    Runs x (traceWith machine x s) (runWith machine x s).1 := by
  induction x generalizing s with
  | done a => exact .done a
  | ask q k ih => exact .ask (machine q s).1 (ih (machine q s).1 (machine q s).2)

/-- Carrying out two actions in turn hands the state of the machine on. -/
theorem runWith_bind (machine : (q : Request) → σ → q.Reply × σ) (x : Action α)
    (f : α → Action β) (s : σ) :
    runWith machine (x >>= f) s =
      runWith machine (f (runWith machine x s).1) (runWith machine x s).2 := by
  induction x generalizing s with
  | done a => rfl
  | ask q k ih => exact ih (machine q s).1 (machine q s).2

/-- The same where it is known how the first action ends. -/
theorem runWith_bind_of_eq {machine : (q : Request) → σ → q.Reply × σ} {x : Action α}
    {f : α → Action β} {s s' : σ} {a : α} (h : runWith machine x s = (a, s')) :
    runWith machine (x >>= f) s = runWith machine (f a) s' := by
  rw [runWith_bind, h]

end Action

namespace Task

variable {α β σ : Type} {machine : (q : Request) → σ → q.Reply × σ} {s s' : σ}

/-- On a machine where the first part succeeds, a composed task goes on with its result. -/
theorem runWith_bind_of_ok {x : Task α} {f : α → Task β} {a : α}
    (h : Action.runWith machine x.attempt s = (.ok a, s')) :
    Action.runWith machine (attempt (x >>= f)) s = Action.runWith machine (f a).attempt s' := by
  unfold attempt at h ⊢
  rw [ExceptT.run_bind, Action.runWith_bind_of_eq h]

/-- On a machine where the first part fails, so does the composed task. -/
theorem runWith_bind_of_error {x : Task α} {f : α → Task β} {fault : Fault}
    (h : Action.runWith machine x.attempt s = (.error fault, s')) :
    Action.runWith machine (attempt (x >>= f)) s = (.error fault, s') := by
  unfold attempt at h ⊢
  rw [ExceptT.run_bind, Action.runWith_bind_of_eq h]
  rfl

/-! ## Traces of composed tasks -/

variable {trace : List Exchange} {x : Task α} {f : α → Task β} {b : β} {fault : Fault}

/-- A dialogue that the machine may refuse ends as it does, with a refusal told as a fault. -/
theorem runs_ofIo_iff {y : Action (Except IoFault α)} {outcome : Except Fault α} :
    Action.Runs (ofIo y).attempt trace outcome ↔
      ∃ reply, Action.Runs y trace reply ∧ outcome = reply.mapError .io := by
  refine Action.runs_bind_iff.trans ⟨?_, ?_⟩
  · rintro ⟨first, second, reply, rfl, hy, hend⟩
    obtain ⟨rfl, rfl⟩ := Action.runs_done_iff.mp hend
    rw [List.append_nil]
    exact ⟨reply, hy, rfl⟩
  · rintro ⟨reply, hy, rfl⟩
    exact ⟨trace, [], reply, (List.append_nil trace).symm, hy, .done _⟩

theorem runs_of_runs_ofIo_ok {y : Action (Except IoFault α)} {a : α}
    (h : Action.Runs (ofIo y).attempt trace (.ok a)) : Action.Runs y trace (.ok a) := by
  obtain ⟨reply, hy, hreply⟩ := runs_ofIo_iff.mp h
  cases reply with
  | error cause => cases hreply
  | ok a' => rwa [Except.ok.inj hreply]

theorem runs_of_runs_ofIo_error {y : Action (Except IoFault α)}
    (h : Action.Runs (ofIo y).attempt trace (.error fault)) :
    ∃ cause, Action.Runs y trace (.error cause) ∧ fault = .io cause := by
  obtain ⟨reply, hy, hreply⟩ := runs_ofIo_iff.mp h
  cases reply with
  | error cause => exact ⟨cause, hy, Except.error.inj hreply⟩
  | ok a => cases hreply

/-- A composed task succeeds if both parts do. -/
theorem runs_bind_ok_iff :
    Action.Runs (x >>= f).attempt trace (.ok b) ↔ ∃ first second a, trace = first ++ second ∧
      Action.Runs x.attempt first (.ok a) ∧ Action.Runs (f a).attempt second (.ok b) := by
  unfold attempt
  rw [ExceptT.run_bind, Action.runs_bind_iff]
  constructor
  · rintro ⟨first, second, outcome, rfl, hx, hf⟩
    cases outcome with
    | error fault => cases (Action.runs_pure_iff.mp hf).2
    | ok a => exact ⟨first, second, a, rfl, hx, hf⟩
  · rintro ⟨first, second, a, rfl, hx, hf⟩
    exact ⟨first, second, .ok a, rfl, hx, hf⟩

/-- It fails if the first part does, or the second after it. -/
theorem runs_bind_error_iff :
    Action.Runs (x >>= f).attempt trace (.error fault) ↔
      Action.Runs x.attempt trace (.error fault) ∨
        ∃ first second a, trace = first ++ second ∧ Action.Runs x.attempt first (.ok a) ∧
          Action.Runs (f a).attempt second (.error fault) := by
  unfold attempt
  rw [ExceptT.run_bind, Action.runs_bind_iff]
  constructor
  · rintro ⟨first, second, outcome, rfl, hx, hf⟩
    cases outcome with
    | error fault' =>
      obtain ⟨rfl, h⟩ := Action.runs_pure_iff.mp hf
      cases h
      rw [List.append_nil]
      exact .inl hx
    | ok a => exact .inr ⟨first, second, a, rfl, hx, hf⟩
  · rintro (hx | ⟨first, second, a, rfl, hx, hf⟩)
    · exact ⟨trace, [], .error fault, (List.append_nil trace).symm, hx,
        Action.runs_pure_iff.mpr ⟨rfl, rfl⟩⟩
    · exact ⟨first, second, .ok a, rfl, hx, hf⟩

/-- After a first part that succeeds, a composed task goes on with the second. -/
theorem runs_bind_of_ok {first second : List Exchange} {a : α} {outcome : Except Fault β}
    (hx : Action.Runs x.attempt first (.ok a)) (hf : Action.Runs (f a).attempt second outcome) :
    Action.Runs (x >>= f).attempt (first ++ second) outcome := by
  cases outcome with
  | ok b => exact runs_bind_ok_iff.mpr ⟨first, second, a, rfl, hx, hf⟩
  | error fault => exact runs_bind_error_iff.mpr (.inr ⟨first, second, a, rfl, hx, hf⟩)

/-- However a composed task ends, the first part has failed or the second one follows it. -/
theorem runs_bind {outcome : Except Fault β}
    (h : Action.Runs (x >>= f).attempt trace outcome) :
    (∃ fault, Action.Runs x.attempt trace (.error fault) ∧ outcome = .error fault) ∨
      ∃ first second a, trace = first ++ second ∧ Action.Runs x.attempt first (.ok a) ∧
        Action.Runs (f a).attempt second outcome := by
  cases outcome with
  | ok b => exact .inr (runs_bind_ok_iff.mp h)
  | error fault => exact (runs_bind_error_iff.mp h).imp_left fun hx => ⟨fault, hx, rfl⟩

end Task

/-! ## Positions in a trace -/

/-- An exchange of two traces in turn belongs to the first or to the second. -/
theorem append_eq_append_cons_iff {first second before after : List Exchange} {e : Exchange} :
    first ++ second = before ++ e :: after ↔
      (∃ middle, first = before ++ e :: middle ∧ after = middle ++ second) ∨
        ∃ middle, before = first ++ middle ∧ second = middle ++ e :: after := by
  constructor
  · intro h
    rcases List.append_eq_append_iff.mp h with
      ⟨middle, rfl, hsecond⟩ | ⟨middle, rfl, hrest⟩
    · exact .inr ⟨middle, rfl, hsecond⟩
    · rcases List.cons_eq_append_iff.mp hrest with ⟨rfl, rfl⟩ | ⟨middle, rfl, rfl⟩
      · exact .inr ⟨[], by simp, rfl⟩
      · exact .inl ⟨middle, rfl, rfl⟩
  · rintro (⟨middle, rfl, rfl⟩ | ⟨middle, rfl, rfl⟩) <;> simp

/-- The last exchange of a trace is of one kind, and those before it are of another. -/
def EndsIn (P Q : Exchange → Prop) (trace : List Exchange) : Prop :=
  ∃ before last, trace = before ++ [last] ∧ (∀ e ∈ before, P e) ∧ Q last

theorem EndsIn.prepend {P Q : Exchange → Prop} {first rest : List Exchange} (h : EndsIn P Q rest)
    (hfirst : ∀ e ∈ first, P e) : EndsIn P Q (first ++ rest) := by
  obtain ⟨before, last, rfl, hbefore, hlast⟩ := h
  refine ⟨first ++ before, last, (List.append_assoc ..).symm, ?_, hlast⟩
  exact List.forall_mem_append.mpr ⟨hfirst, hbefore⟩

/-! ## Properties that compose -/

/-- What holds of a trace if it holds of its parts. -/
structure Composes (P : List Exchange → Prop) : Prop where
  nil : P []
  append {first second : List Exchange} : P first → P second → P (first ++ second)

/-- What is said of each exchange alone composes. -/
theorem Composes.of_forall (Q : Exchange → Prop) : Composes fun trace => ∀ e ∈ trace, Q e where
  nil := nofun
  append h h' := List.forall_mem_append.mpr ⟨h, h'⟩

end DaemonKeeper
