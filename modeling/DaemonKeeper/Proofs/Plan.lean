import DaemonKeeper.Proofs.Trace
import Mathlib.Data.List.Forall2
set_option autoImplicit false

/-!
# Plans that are carried out up to the first step that stops them

A plan is a list of steps.  A step is either done, and the next one is taken, or it stops the whole.
What was exchanged is then the one trace after the other of the steps that were done, with that of
the step that stopped them at the end.  A task follows a plan if every run of it is of this form.
-/

namespace DaemonKeeper

variable {ι ω : Type}

/-- How the steps of a plan go: what is exchanged in a step that is done, and what in one that stops
the whole, with the reason for it. -/
structure Conduct (ι ω : Type) where
  Done : ι → List Exchange → Prop
  Stops : ι → List Exchange → ω → Prop

namespace Conduct

variable {c : Conduct ι ω} {plan more : List ι} {trace later : List Exchange}
variable {reason : ω} {stopped : Option ω}

/-- A plan is carried out to its end, or up to a step that stops it for a reason. -/
inductive Carried (c : Conduct ι ω) : List ι → List Exchange → Option ω → Prop where
  | nil : Carried c [] [] none
  | step {i : ι} {plan : List ι} {first rest : List Exchange} {stopped : Option ω} :
    c.Done i first → Carried c plan rest stopped → Carried c (i :: plan) (first ++ rest) stopped
  | stop {i : ι} {plan : List ι} {trace : List Exchange} {reason : ω} :
    c.Stops i trace reason → Carried c (i :: plan) trace (some reason)

theorem Carried.single {i : ι} (h : c.Done i trace) : c.Carried [i] trace none := by
  have hstep := Carried.step h .nil
  rwa [List.append_nil] at hstep

theorem carried_single_none_iff {i : ι} : c.Carried [i] trace none ↔ c.Done i trace := by
  refine ⟨fun h => ?_, .single⟩
  cases h with
  | step hdone hrest =>
    cases hrest
    rwa [List.append_nil]

theorem carried_single_some_iff {i : ι} :
    c.Carried [i] trace (some reason) ↔ c.Stops i trace reason := by
  refine ⟨fun h => ?_, .stop⟩
  cases h with
  | step _ hrest => cases hrest
  | stop hstops => exact hstops

/-- What was carried out to its end goes on with the next plan. -/
theorem Carried.append (h : c.Carried plan trace none) (hmore : c.Carried more later stopped) :
    c.Carried (plan ++ more) (trace ++ later) stopped := by
  induction plan generalizing trace with
  | nil =>
    cases h with
    | nil => exact hmore
  | cons i plan ih =>
    cases h with
    | step hdone hrest =>
      rw [List.append_assoc]
      exact .step hdone (ih hrest)

/-- After what was stopped nothing is done any more. -/
theorem Carried.append_of_stopped (h : c.Carried plan trace (some reason)) (more : List ι) :
    c.Carried (plan ++ more) trace (some reason) := by
  induction plan generalizing trace with
  | nil => cases h
  | cons i plan ih =>
    cases h with
    | step hdone hrest => exact .step hdone (ih hrest)
    | stop hstops => exact .stop hstops

/-- Two plans in turn are carried out up to where the first is stopped, or the second after it. -/
theorem carried_append_iff :
    c.Carried (plan ++ more) trace stopped ↔
      (∃ reason, stopped = some reason ∧ c.Carried plan trace (some reason)) ∨
        ∃ first second, trace = first ++ second ∧ c.Carried plan first none ∧
          c.Carried more second stopped := by
  refine ⟨fun h => ?_, ?_⟩
  · induction plan generalizing trace with
    | nil => exact .inr ⟨[], trace, rfl, .nil, h⟩
    | cons i plan ih =>
      cases h with
      | @step _ _ part rest _ hdone hrest =>
        rcases ih hrest with ⟨reason, rfl, hfirst⟩ | ⟨first, second, rfl, hfirst, hsecond⟩
        · exact .inl ⟨reason, rfl, .step hdone hfirst⟩
        · refine .inr ⟨part ++ first, second, (List.append_assoc ..).symm, ?_, hsecond⟩
          exact .step hdone hfirst
      | stop hstops => exact .inl ⟨_, rfl, .stop hstops⟩
  · rintro (⟨reason, rfl, hfirst⟩ | ⟨first, second, rfl, hfirst, hsecond⟩)
    · exact hfirst.append_of_stopped more
    · exact hfirst.append hsecond

/-- A plan is carried out to its end if and only if each step is done, in order. -/
theorem carried_none_iff :
    c.Carried plan trace none ↔
      ∃ parts, trace = parts.flatten ∧ List.Forall₂ c.Done plan parts := by
  induction plan generalizing trace with
  | nil =>
    constructor
    · intro h
      cases h
      exact ⟨[], rfl, .nil⟩
    · rintro ⟨parts, rfl, hparts⟩
      cases hparts
      exact .nil
  | cons i plan ih =>
    constructor
    · intro h
      cases h with
      | step hdone hrest =>
        obtain ⟨parts, rfl, hparts⟩ := ih.mp hrest
        exact ⟨_ :: parts, rfl, .cons hdone hparts⟩
    · rintro ⟨parts, rfl, hparts⟩
      cases hparts with
      | cons hdone hrest => exact .step hdone (ih.mpr ⟨_, rfl, hrest⟩)

/-- A plan is stopped at one of its steps: those before it were done, and those after it were left.
-/
structure StoppedAt (c : Conduct ι ω) (plan done : List ι) (last : ι) (left : List ι)
    (trace : List Exchange) (reason : ω) : Prop where
  plan_eq : plan = done ++ [last] ++ left
  carried : ∃ before final, trace = before ++ final ∧ c.Carried done before none ∧
    c.Stops last final reason

theorem Carried.exists_stoppedAt (h : c.Carried plan trace (some reason)) :
    ∃ done last left, c.StoppedAt plan done last left trace reason := by
  induction plan generalizing trace with
  | nil => cases h
  | cons i plan ih =>
    cases h with
    | step hdone hrest =>
      obtain ⟨done, last, left, rfl, before, final, rfl, hbefore, hstops⟩ := ih hrest
      refine ⟨i :: done, last, left, rfl, _, final, (List.append_assoc ..).symm, ?_, hstops⟩
      exact .step hdone hbefore
    | stop hstops => exact ⟨[], i, plan, rfl, [], trace, rfl, .nil, hstops⟩

/-- A plan is carried out up to a reason if and only if it is stopped at a step for that reason. -/
theorem carried_some_iff :
    c.Carried plan trace (some reason) ↔
      ∃ done last left, c.StoppedAt plan done last left trace reason := by
  refine ⟨Carried.exists_stoppedAt, ?_⟩
  rintro ⟨done, last, left, rfl, before, final, rfl, hbefore, hstops⟩
  rw [List.append_assoc]
  exact hbefore.append (.stop hstops)

/-- If what a step shows of itself is the same whether it is done or stops the whole, a plan that
was carried out to its end shows all of itself. -/
theorem Carried.filterMap_eq {γ : Type} {shown : Exchange → Option γ} {shows : ι → Option γ}
    (hdone : ∀ i t, c.Done i t → t.filterMap shown = (shows i).toList)
    (h : c.Carried plan trace none) : trace.filterMap shown = plan.filterMap shows := by
  induction plan generalizing trace with
  | nil =>
    cases h
    rfl
  | cons i plan ih =>
    cases h with
    | step hi hrest =>
      rw [List.filterMap_append, hdone i _ hi, ih hrest]
      cases hshows : shows i with
      | none => rw [List.filterMap_cons_none hshows, Option.toList_none, List.nil_append]
      | some a => rw [List.filterMap_cons_some hshows, Option.toList_some, List.singleton_append]

/-- What composes, and is so of each step, is so of the whole. -/
theorem Carried.composes {P : List Exchange → Prop} (hP : Composes P)
    (hdone : ∀ i ∈ plan, ∀ t, c.Done i t → P t)
    (hstops : ∀ i ∈ plan, ∀ t reason, c.Stops i t reason → P t)
    (h : c.Carried plan trace stopped) : P trace := by
  induction h with
  | nil => exact hP.nil
  | step hi _ ih =>
    rw [List.forall_mem_cons] at hdone hstops
    exact hP.append (hdone.1 _ hi) (ih hdone.2 hstops.2)
  | stop hi => exact hstops _ List.mem_cons_self _ _ hi

/-- What is so of every exchange of each step, is so of every exchange. -/
theorem Carried.forall_exchange {Q : Exchange → Prop}
    (hdone : ∀ i ∈ plan, ∀ t, c.Done i t → ∀ e ∈ t, Q e)
    (hstops : ∀ i ∈ plan, ∀ t reason, c.Stops i t reason → ∀ e ∈ t, Q e)
    (h : c.Carried plan trace stopped) : ∀ e ∈ trace, Q e :=
  h.composes (.of_forall Q) hdone hstops

/-- What is so of every exchange of a step that is done, is so of every exchange of a plan that was
carried out to its end. -/
theorem Carried.forall_exchange_of_done {Q : Exchange → Prop}
    (hdone : ∀ i ∈ plan, ∀ t, c.Done i t → ∀ e ∈ t, Q e)
    (h : c.Carried plan trace none) : ∀ e ∈ trace, Q e := by
  induction plan generalizing trace with
  | nil =>
    cases h
    nofun
  | cons i plan ih =>
    rw [List.forall_mem_cons] at hdone
    cases h with
    | step hi hrest => exact List.forall_mem_append.mpr ⟨hdone.1 _ hi, ih hdone.2 hrest⟩

/-- If a step that is done is harmless, and one that stops the whole comes to harm only at its end,
then the harm that stopped a plan is the last thing in its trace. -/
theorem Carried.endsIn {Harmless : Exchange → Prop} {Harm : ω → Exchange → Prop}
    (hdone : ∀ i ∈ plan, ∀ t, c.Done i t → ∀ e ∈ t, Harmless e)
    (hstops : ∀ i ∈ plan, ∀ t reason, c.Stops i t reason → EndsIn Harmless (Harm reason) t)
    (h : c.Carried plan trace (some reason)) : EndsIn Harmless (Harm reason) trace := by
  induction plan generalizing trace with
  | nil => cases h
  | cons i plan ih =>
    rw [List.forall_mem_cons] at hdone hstops
    cases h with
    | step hi hrest => exact (ih hdone.2 hstops.2 hrest).prepend (hdone.1 _ hi)
    | stop hi => exact hstops.1 _ _ hi

end Conduct

/-! ## Tasks that follow a plan -/

/-- A task that succeeds has carried a plan out to its end, with a right result; one that fails was
stopped by the fault. -/
structure Task.Follows {α : Type} (c : Conduct ι Fault) (plan : List ι) (Right : α → Prop)
    (t : Task α) : Prop where
  ok : ∀ trace a, Action.Runs t.attempt trace (.ok a) → Right a ∧ c.Carried plan trace none
  error : ∀ trace fault, Action.Runs t.attempt trace (.error fault) →
    c.Carried plan trace (some fault)

namespace Task.Follows

variable {α β : Type} {c : Conduct ι Fault} {plan more : List ι}
variable {Right : α → Prop} {Right' : β → Prop}

/-- A task that asks for nothing follows the empty plan. -/
theorem pure {a : α} (h : Right a) : Follows c [] Right (Pure.pure a : Task α) where
  ok trace b hrun := by
    obtain ⟨rfl, hb⟩ := Action.runs_done_iff.mp hrun
    obtain rfl := Except.ok.inj hb
    exact ⟨h, .nil⟩
  error trace fault hrun := by
    cases (Action.runs_done_iff.mp hrun).2

/-- Tasks in turn follow their plans in turn. -/
theorem bind {x : Task α} {f : α → Task β} (hx : Follows c plan Right x)
    (hf : ∀ a, Right a → Follows c more Right' (f a)) :
    Follows c (plan ++ more) Right' (x >>= f) where
  ok trace b hrun := by
    obtain ⟨first, second, a, rfl, hfirst, hsecond⟩ := Task.runs_bind_ok_iff.mp hrun
    obtain ⟨ha, hcarried⟩ := hx.ok _ _ hfirst
    obtain ⟨hb, hmore⟩ := (hf a ha).ok _ _ hsecond
    exact ⟨hb, hcarried.append hmore⟩
  error trace fault hrun := by
    rcases Task.runs_bind_error_iff.mp hrun with hfirst | ⟨first, second, a, rfl, hfirst, hsecond⟩
    · exact (hx.error _ _ hfirst).append_of_stopped more
    · obtain ⟨ha, hcarried⟩ := hx.ok _ _ hfirst
      exact hcarried.append ((hf a ha).error _ _ hsecond)

/-- A result that is given afterwards takes no step. -/
theorem andReturn {x : Task α} {b : β} (hx : Follows c plan Right x) (hb : Right' b) :
    Follows c plan Right' (do let _ ← x; return b) := by
  have h := hx.bind fun _ _ => pure hb
  rwa [List.append_nil] at h

/-- What composes, and is so of each step, is so of every run of the task. -/
theorem composes_steps {x : Task α} {P : List Exchange → Prop} {trace : List Exchange}
    {outcome : Except Fault α} (h : Follows c plan Right x) (hP : Composes P)
    (hdone : ∀ i ∈ plan, ∀ part, c.Done i part → P part)
    (hstops : ∀ i ∈ plan, ∀ part fault, c.Stops i part fault → P part)
    (hruns : Action.Runs x.attempt trace outcome) : P trace := by
  cases outcome with
  | ok a => exact (h.ok _ _ hruns).2.composes hP hdone hstops
  | error fault => exact (h.error _ _ hruns).composes hP hdone hstops

end Task.Follows

/-- A task whose runs are those in which a plan is carried out: it succeeds if and only if the plan
is carried out to its end, and fails if and only if the plan is stopped by the fault. -/
structure Task.Performs (c : Conduct ι Fault) (plan : List ι) (t : Task Unit) : Prop where
  ok_iff : ∀ trace, Action.Runs t.attempt trace (.ok ()) ↔ c.Carried plan trace none
  error_iff : ∀ trace fault, Action.Runs t.attempt trace (.error fault) ↔
    c.Carried plan trace (some fault)

namespace Task.Performs

variable {c : Conduct ι Fault} {plan more : List ι}

theorem follows {t : Task Unit} (h : Performs c plan t) : Follows c plan (fun _ => True) t where
  ok trace _ hrun := ⟨trivial, (h.ok_iff trace).mp hrun⟩
  error trace fault hrun := (h.error_iff trace fault).mp hrun

theorem pure : Performs c [] (Pure.pure () : Task Unit) where
  ok_iff trace := by
    constructor
    · intro hrun
      obtain ⟨rfl, -⟩ := Action.runs_done_iff.mp hrun
      exact .nil
    · rintro ⟨⟩
      exact .done _
  error_iff trace fault := by
    constructor
    · intro hrun
      cases (Action.runs_done_iff.mp hrun).2
    · rintro ⟨⟩

/-- Tasks in turn perform their plans in turn. -/
theorem bind {x y : Task Unit} (hx : Performs c plan x) (hy : Performs c more y) :
    Performs c (plan ++ more) (x >>= fun _ => y) where
  ok_iff trace := by
    rw [Task.runs_bind_ok_iff, Conduct.carried_append_iff]
    constructor
    · rintro ⟨first, second, _, rfl, hfirst, hsecond⟩
      exact .inr ⟨first, second, rfl, (hx.ok_iff _).mp hfirst, (hy.ok_iff _).mp hsecond⟩
    · rintro (⟨reason, hreason, -⟩ | ⟨first, second, rfl, hfirst, hsecond⟩)
      · cases hreason
      · exact ⟨first, second, (), rfl, (hx.ok_iff _).mpr hfirst, (hy.ok_iff _).mpr hsecond⟩
  error_iff trace fault := by
    rw [Task.runs_bind_error_iff, Conduct.carried_append_iff]
    constructor
    · rintro (hfirst | ⟨first, second, _, rfl, hfirst, hsecond⟩)
      · exact .inl ⟨fault, rfl, (hx.error_iff _ _).mp hfirst⟩
      · exact .inr ⟨first, second, rfl, (hx.ok_iff _).mp hfirst, (hy.error_iff _ _).mp hsecond⟩
    · rintro (⟨reason, hreason, hfirst⟩ | ⟨first, second, rfl, hfirst, hsecond⟩)
      · obtain rfl := Option.some.inj hreason
        exact .inl ((hx.error_iff _ _).mpr hfirst)
      · exact .inr ⟨first, second, (), rfl, (hx.ok_iff _).mpr hfirst,
          (hy.error_iff _ _).mpr hsecond⟩

end Task.Performs

/-! ## Plans whose steps are tasks -/

section

variable {α : Type} {plan more : List ι} {question : ι → Task Bool}

/-- Each step is a task: it is done if it succeeds, and its fault stops the whole. -/
def Conduct.ofTasks (task : ι → Task α) : Conduct ι Fault where
  Done i trace := ∃ a, Action.Runs (task i).attempt trace (.ok a)
  Stops i trace fault := Action.Runs (task i).attempt trace (.error fault)

/-- A step on its own. -/
theorem Task.Follows.task (task : ι → Task α) (i : ι) :
    Follows (.ofTasks task) [i] (fun _ => True) (task i) where
  ok _ a hrun := ⟨trivial, .single ⟨a, hrun⟩⟩
  error _ _ hrun := .stop hrun

theorem Task.Performs.task (task : ι → Task Unit) (i : ι) :
    Performs (.ofTasks task) [i] (task i) where
  ok_iff trace := by
    rw [Conduct.carried_single_none_iff]
    exact ⟨fun hrun => ⟨(), hrun⟩, fun ⟨_, hrun⟩ => hrun⟩
  error_iff trace fault := by
    rw [Conduct.carried_single_some_iff]
    exact Iff.rfl

/-- Tasks that each perform their own step, done one after the other, perform the plan. -/
theorem Task.Performs.forM {c : Conduct ι Fault} {task : ι → Task Unit}
    (h : ∀ i, Performs c [i] (task i)) (plan : List ι) : Performs c plan (forM plan task) := by
  induction plan with
  | nil => exact .pure
  | cons i plan ih =>
    rw [List.forM_cons]
    exact (h i).bind ih

/-- What composes, and is so of each of the tasks, is so of the whole. -/
theorem Task.Follows.composes {task : ι → Task α} {β : Type} {t : Task β} {Right : β → Prop}
    {P : List Exchange → Prop} {trace : List Exchange} {outcome : Except Fault β}
    (h : t.Follows (.ofTasks task) plan Right) (hP : Composes P)
    (htask : ∀ i ∈ plan, ∀ part result, Action.Runs (task i).attempt part result → P part)
    (hruns : Action.Runs t.attempt trace outcome) : P trace := by
  refine h.composes_steps hP ?_ (fun i hi part fault hpart => htask i hi part _ hpart) hruns
  rintro i hi part ⟨a, hpart⟩
  exact htask i hi part _ hpart

/-- What is so of every exchange of each of the tasks, is so of every exchange of the whole. -/
theorem Task.Follows.forall_exchange {task : ι → Task α} {β : Type} {t : Task β}
    {Right : β → Prop} {Q : Exchange → Prop} {trace : List Exchange} {outcome : Except Fault β}
    (h : t.Follows (.ofTasks task) plan Right)
    (htask : ∀ i ∈ plan, ∀ part result, Action.Runs (task i).attempt part result → ∀ e ∈ part, Q e)
    (hruns : Action.Runs t.attempt trace outcome) : ∀ e ∈ trace, Q e :=
  h.composes (.of_forall Q) htask hruns

/-- Each step is a question: it is done if the answer is no, and any other outcome stops the whole.
-/
def Conduct.ofQuestions (question : ι → Task Bool) : Conduct ι (Except Fault Bool) where
  Done i trace := Action.Runs (question i).attempt trace (.ok false)
  Stops i trace outcome := outcome ≠ .ok false ∧ Action.Runs (question i).attempt trace outcome

/-- Questions that are asked of the members of a list are carried out up to the first that is not
answered with no. -/
theorem Task.runs_anyM_iff {trace : List Exchange} {outcome : Except Fault Bool} :
    Action.Runs (plan.anyM question).attempt trace outcome ↔
      outcome = .ok false ∧ (Conduct.ofQuestions question).Carried plan trace none ∨
        (Conduct.ofQuestions question).Carried plan trace (some outcome) := by
  induction plan generalizing trace with
  | nil =>
    rw [List.anyM_nil]
    constructor
    · intro h
      obtain ⟨rfl, rfl⟩ := Action.runs_done_iff.mp h
      exact .inl ⟨rfl, .nil⟩
    · rintro (⟨rfl, h⟩ | h)
      · cases h
        exact .done _
      · cases h
  | cons i plan ih =>
    rw [List.anyM_cons]
    constructor
    · intro h
      rcases Task.runs_bind h with ⟨fault, hi, rfl⟩ | ⟨first, rest, found, rfl, hi, hrest⟩
      · exact .inr (.stop ⟨nofun, hi⟩)
      cases found with
      | true =>
        obtain ⟨rfl, rfl⟩ := Action.runs_done_iff.mp hrest
        rw [List.append_nil]
        exact .inr (.stop ⟨nofun, hi⟩)
      | false => exact (ih.mp hrest).imp (.imp_right (.step hi)) (.step hi)
    · rintro (⟨rfl, h⟩ | h)
      · cases h with
        | step hi hrest => exact Task.runs_bind_of_ok hi (ih.mpr (.inl ⟨rfl, hrest⟩))
      · cases h with
        | step hi hrest => exact Task.runs_bind_of_ok hi (ih.mpr (.inr hrest))
        | stop hi =>
          obtain ⟨hne, hi⟩ := hi
          rcases outcome with fault | found
          · exact Task.runs_bind_error_iff.mpr (.inl hi)
          cases found with
          | true =>
            rw [← List.append_nil trace]
            exact Task.runs_bind_of_ok hi (.done (Except.ok true))
          | false => exact absurd rfl hne

/-- A task that asks one after the other whether something is so, up to the first that does not say
no: its outcome is that of the whole. -/
structure Task.Asks (question : ι → Task Bool) (plan : List ι) (t : Task Bool) : Prop where
  no : ∀ trace, Action.Runs t.attempt trace (.ok false) →
    (Conduct.ofQuestions question).Carried plan trace none
  other : ∀ trace outcome, Action.Runs t.attempt trace outcome → outcome ≠ .ok false →
    (Conduct.ofQuestions question).Carried plan trace (some outcome)

/-- The same for questions. -/
theorem Task.Asks.forall_exchange {t : Task Bool} {Q : Exchange → Prop} {trace : List Exchange}
    {outcome : Except Fault Bool} (h : t.Asks question plan)
    (hquestion : ∀ i ∈ plan, ∀ part result, Action.Runs (question i).attempt part result →
      ∀ e ∈ part, Q e)
    (hruns : Action.Runs t.attempt trace outcome) : ∀ e ∈ trace, Q e := by
  have hdone : ∀ i ∈ plan, ∀ part, (Conduct.ofQuestions question).Done i part →
      ∀ e ∈ part, Q e := fun i hi part hpart => hquestion i hi part _ hpart
  have hstops : ∀ i ∈ plan, ∀ part result, (Conduct.ofQuestions question).Stops i part result →
      ∀ e ∈ part, Q e := fun i hi part result hpart => hquestion i hi part result hpart.2
  by_cases hno : outcome = .ok false
  · subst hno
    exact (h.no _ hruns).forall_exchange hdone hstops
  · exact (h.other _ _ hruns hno).forall_exchange hdone hstops

/-- Asking the members of a list one after the other. -/
theorem Task.Asks.anyM (question : ι → Task Bool) (plan : List ι) :
    Asks question plan (plan.anyM question) where
  no trace hrun := by
    rcases Task.runs_anyM_iff.mp hrun with ⟨-, hcarried⟩ | hcarried
    · exact hcarried
    · obtain ⟨_, _, _, -, _, _, -, -, hne, -⟩ := hcarried.exists_stoppedAt
      exact absurd rfl hne
  other trace outcome hrun hne := by
    rcases Task.runs_anyM_iff.mp hrun with ⟨hno, -⟩ | hcarried
    · exact absurd hno hne
    · exact hcarried

/-- The members of two lists in turn are those of the second only if nobody of the first says yes. -/
theorem Task.anyM_append (question : ι → Task Bool) (plan more : List ι) :
    (plan ++ more).anyM question =
      (do if ← plan.anyM question then return true else more.anyM question) := by
  induction plan with
  | nil => rfl
  | cons i plan ih =>
    rw [List.cons_append, List.anyM_cons, List.anyM_cons, ih, bind_assoc]
    refine congrArg (question i >>= ·) (funext fun found => ?_)
    cases found <;> rfl

end

end DaemonKeeper
