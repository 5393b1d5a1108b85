import DaemonKeeper.Proofs.SingleClone
set_option autoImplicit false

/-!
# The visits of an update (SPEC §3.2, §3.3)

An update visits the nodes of a tree one after the other, each after those it depends on.  A visit
probes the checkout, pulls or clones by what it has found, and then settles the submodules and the
branch.  Only the probe may go wrong without a consequence.  Whatever else is refused is the last
thing that is asked for, and the update fails with its fault.
-/

namespace DaemonKeeper

open Git

/-! ## Requests that are granted or refused -/

/-- The fault with which a command, or the creation of a directory, was refused. -/
def Exchange.refusal? : Exchange → Option Fault
  | ⟨.run _ _, .error fault⟩ => some fault
  | ⟨.createDirectory _, .error cause⟩ => some (.io cause)
  | _ => none

/-- Each step is a request: it is done if it is granted, and its refusal stops the whole. -/
def Conduct.ofRequests : Conduct Request Fault where
  Done q trace := ∃ reply : q.Reply, trace = [⟨q, reply⟩] ∧ Exchange.refusal? ⟨q, reply⟩ = none
  Stops q trace fault :=
    ∃ reply : q.Reply, trace = [⟨q, reply⟩] ∧ Exchange.refusal? ⟨q, reply⟩ = some fault

namespace Task.Performs

/-- A task that is one request and fails if it is refused. -/
theorem of_attempt_eq {t : Task Unit} {q : Request}
    (h : t.attempt = .ask q fun reply =>
      .done ((Exchange.refusal? ⟨q, reply⟩).elim (.ok ()) .error)) :
    Performs .ofRequests [q] t where
  ok_iff trace := by
    rw [h, Conduct.carried_single_none_iff, Action.runs_ask_iff]
    constructor
    · rintro ⟨reply, rest, rfl, hrest⟩
      obtain ⟨rfl, hok⟩ := Action.runs_done_iff.mp hrest
      refine ⟨reply, rfl, ?_⟩
      cases hrefusal : Exchange.refusal? ⟨q, reply⟩ with
      | none => rfl
      | some fault =>
        rw [hrefusal] at hok
        cases hok
    · rintro ⟨reply, rfl, hgranted⟩
      refine ⟨reply, [], rfl, ?_⟩
      rw [hgranted]
      exact .done _
  error_iff trace fault := by
    rw [h, Conduct.carried_single_some_iff, Action.runs_ask_iff]
    constructor
    · rintro ⟨reply, rest, rfl, hrest⟩
      obtain ⟨rfl, herror⟩ := Action.runs_done_iff.mp hrest
      refine ⟨reply, rfl, ?_⟩
      cases hrefusal : Exchange.refusal? ⟨q, reply⟩ with
      | none =>
        rw [hrefusal] at herror
        cases herror
      | some fault' =>
        rw [hrefusal] at herror
        cases herror
        rfl
    · rintro ⟨reply, rfl, hrefused⟩
      refine ⟨reply, [], rfl, ?_⟩
      rw [hrefused]
      exact .done _

theorem effect (directory : Path) (command : Command) :
    Performs .ofRequests [.run directory command] (Build.effect directory command) :=
  of_attempt_eq (congrArg (Action.ask _) (funext fun reply => by cases reply <;> rfl))

theorem createDirectory (directory : Path) :
    Performs .ofRequests [.createDirectory directory]
      (Task.ofIo (Action.request (.createDirectory directory))) :=
  of_attempt_eq (congrArg (Action.ask _) (funext fun reply => by cases reply <;> rfl))

end Task.Performs

/-! ## Harm -/

/-- The question for the branches of a checkout. -/
def Request.IsProbe (q : Request) : Prop := ∃ directory, q = .run directory ⟨"git", ["branch"]⟩

/-- Nothing was refused, except perhaps to a probe. -/
def Exchange.Harmless (e : Exchange) : Prop := e.refusal? = none ∨ e.request.IsProbe

/-- Something other than a probe was refused with a fault. -/
def Exchange.Fatal (fault : Fault) (e : Exchange) : Prop :=
  e.refusal? = some fault ∧ ¬ e.request.IsProbe

namespace Conduct

variable {plan : List Request} {trace : List Exchange} {fault : Fault}

theorem harmless_of_granted (h : ofRequests.Carried plan trace none) :
    ∀ e ∈ trace, e.Harmless := by
  refine h.forall_exchange_of_done ?_
  rintro q - _ ⟨reply, rfl, hgranted⟩
  exact List.forall_mem_singleton.mpr (.inl hgranted)

/-- A plan without a probe is stopped by what is fatal. -/
theorem endsIn_of_refused (hplan : ∀ q ∈ plan, ¬ q.IsProbe)
    (h : ofRequests.Carried plan trace (some fault)) :
    EndsIn Exchange.Harmless (Exchange.Fatal fault) trace := by
  refine h.endsIn ?_ ?_
  · rintro q - _ ⟨reply, rfl, hgranted⟩
    exact List.forall_mem_singleton.mpr (.inl hgranted)
  · rintro q hq _ fault ⟨reply, rfl, hrefused⟩
    exact ⟨[], _, rfl, nofun, hrefused, hplan q hq⟩

end Conduct

/-! ## One visit -/

namespace Git.Repository

variable {r : Repository} {trace : List Exchange} {stopped : Option Fault}

/-- What is asked for once the sources are there. -/
def settling (r : Repository) : List Request :=
  [.run r.directory ⟨"git", ["submodule", "init"]⟩,
    .run r.directory ⟨"git", ["submodule", "update"]⟩,
    .run r.directory ⟨"git", ["checkout", r.branch]⟩]

/-- What is asked for after the probe has found a usable clone, or none. -/
def visitPlan (r : Repository) : Bool → List Request
  | true => .run r.directory ⟨"git", ["pull", "origin", r.branch]⟩ :: r.settling
  | false => .createDirectory r.parent :: .run r.parent ⟨"git", ["clone", r.remoteUrl]⟩ ::
      r.settling

/-- The visit of a repository, with what is exchanged and the fault that has stopped it, if any. -/
inductive Visit (r : Repository) : List Exchange → Option Fault → Prop where
  /-- There is no directory: git is not asked, and the repository is cloned. -/
  | missing {rest : List Exchange} {stopped : Option Fault} :
    Conduct.ofRequests.Carried (r.visitPlan false) rest stopped →
    Visit r (⟨.isDirectory r.directory, false⟩ :: rest) stopped
  /-- There is one, but git fails or names no current branch: the repository is cloned. -/
  | unusable {reply : Except Fault Output} {rest : List Exchange} {stopped : Option Fault} :
    namesBranch reply = false → Conduct.ofRequests.Carried (r.visitPlan false) rest stopped →
    Visit r (⟨.isDirectory r.directory, true⟩ ::
      ⟨.run r.directory ⟨"git", ["branch"]⟩, reply⟩ :: rest) stopped
  /-- Git names a current branch: the tracked branch is pulled. -/
  | usable {reply : Except Fault Output} {rest : List Exchange} {stopped : Option Fault} :
    namesBranch reply = true → Conduct.ofRequests.Carried (r.visitPlan true) rest stopped →
    Visit r (⟨.isDirectory r.directory, true⟩ ::
      ⟨.run r.directory ⟨"git", ["branch"]⟩, reply⟩ :: rest) stopped

/-- A visit is a probe, and then what its finding asks for. -/
theorem visit_iff :
    r.Visit trace stopped ↔ ∃ looking rest cloned, trace = looking ++ rest ∧
      r.Probed looking cloned ∧
      Conduct.ofRequests.Carried (r.visitPlan cloned) rest stopped := by
  constructor
  · intro h
    cases h with
    | missing hrest => exact ⟨_, _, _, rfl, .missing, hrest⟩
    | @unusable reply rest _ hreply hrest =>
      exact ⟨_, rest, _, rfl, .asked reply, hreply ▸ hrest⟩
    | @usable reply rest _ hreply hrest =>
      exact ⟨_, rest, _, rfl, .asked reply, hreply ▸ hrest⟩
  · rintro ⟨looking, rest, cloned, rfl, hprobed, hrest⟩
    cases hprobed with
    | missing => exact .missing hrest
    | asked reply =>
      cases hreply : namesBranch reply with
      | true => exact .usable hreply (hreply ▸ hrest)
      | false => exact .unusable hreply (hreply ▸ hrest)

theorem not_isProbe_of_mem_visitPlan {cloned : Bool} :
    ∀ q ∈ r.visitPlan cloned, ¬ q.IsProbe := by
  cases cloned <;> simp [visitPlan, settling, Request.IsProbe]

theorem Probed.harmless {cloned : Bool} (h : r.Probed trace cloned) :
    ∀ e ∈ trace, e.Harmless := by
  cases h with
  | missing => exact List.forall_mem_singleton.mpr (.inl rfl)
  | asked reply =>
    exact List.forall_mem_cons.mpr ⟨.inl rfl, List.forall_mem_singleton.mpr (.inr ⟨_, rfl⟩)⟩

theorem Visit.harmless (h : r.Visit trace none) : ∀ e ∈ trace, e.Harmless := by
  obtain ⟨looking, rest, cloned, rfl, hprobed, hrest⟩ := visit_iff.mp h
  exact List.forall_mem_append.mpr ⟨hprobed.harmless, Conduct.harmless_of_granted hrest⟩

theorem Visit.endsIn {fault : Fault} (h : r.Visit trace (some fault)) :
    EndsIn Exchange.Harmless (Exchange.Fatal fault) trace := by
  obtain ⟨looking, rest, cloned, rfl, hprobed, hrest⟩ := visit_iff.mp h
  exact (Conduct.endsIn_of_refused not_isProbe_of_mem_visitPlan hrest).prepend hprobed.harmless

/-- After the probe the plan for what it has found is performed. -/
theorem performs_fetchSources (r : Repository) (cloned : Bool) :
    Task.Performs .ofRequests (r.visitPlan cloned)
      (r.fetchSources cloned >>= fun _ => r.checkout) := by
  have hsettle : Task.Performs .ofRequests r.settling
      (r.updateSubmodules >>= fun _ => r.checkout) :=
    ((Task.Performs.effect r.directory ⟨"git", ["submodule", "init"]⟩).bind
      (.effect r.directory ⟨"git", ["submodule", "update"]⟩)).bind
      (.effect r.directory ⟨"git", ["checkout", r.branch]⟩)
  cases cloned with
  | true =>
    have hpull := (Task.Performs.effect r.directory ⟨"git", ["pull", "origin", r.branch]⟩).bind
      hsettle
    rwa [← bind_assoc] at hpull
  | false =>
    have hclone := (Task.Performs.createDirectory r.parent).bind
      ((Task.Performs.effect r.parent ⟨"git", ["clone", r.remoteUrl]⟩).bind hsettle)
    simp only [fetchSources, Build.effect, bind_assoc, pure_bind, Bool.false_eq_true,
      if_false] at hclone ⊢
    exact hclone

end Git.Repository

/-! ## All visits -/

namespace Project

variable {p : Project} {trace : List Exchange} {outcome : Except Fault Unit} {fault : Fault}

/-- Each step is the visit of a node: it is done if nothing stops it, and else stops the whole. -/
def visits : Conduct Project Fault where
  Done node trace := node.repository.Visit trace none
  Stops node trace fault := node.repository.Visit trace (some fault)

theorem performs_update (node : Project) : Task.Performs visits [node] node.update where
  ok_iff trace := by
    rw [Conduct.carried_single_none_iff]
    refine .trans ?_ Git.Repository.visit_iff.symm
    simp only [update, Git.Repository.attempt_update_eq, Action.runs_bind_iff,
      Git.Repository.runs_isCloned_iff, (Git.Repository.performs_fetchSources _ _).ok_iff]
  error_iff trace fault := by
    rw [Conduct.carried_single_some_iff]
    refine .trans ?_ Git.Repository.visit_iff.symm
    simp only [update, Git.Repository.attempt_update_eq, Action.runs_bind_iff,
      Git.Repository.runs_isCloned_iff, (Git.Repository.performs_fetchSources _ _).error_iff]

/-- An update of a tree is the visits of its nodes. -/
theorem performs_cloneSources (p : Project) :
    Task.Performs visits p.dependenciesFirst p.cloneSources := by
  rw [cloneSources_eq_forM]
  exact .forM performs_update p.dependenciesFirst

/-! ## Main statement -/

/-- The nodes of a tree are those of its dependencies in order, and then the node itself.  In that
order an update visits them.  It succeeds if and only if all of them are visited and nothing stops a
visit; it fails if and only if its fault has stopped the visit of a node, after those before it were
visited and with those after it left.  Only a probe is refused without a consequence: if anything
else is refused, that is the last thing that is asked for, and the update fails with its fault. -/
theorem update_visits_dependencies_first
    (h : Action.Runs p.cloneSources.attempt trace outcome) :
    (∀ node : Project,
      node.dependenciesFirst = node.dependencies.flatMap dependenciesFirst ++ [node]) ∧
    (outcome = .ok () ↔ ∃ parts, trace = parts.flatten ∧
      List.Forall₂ (fun node part => node.repository.Visit part none) p.dependenciesFirst parts) ∧
    (∀ fault, outcome = .error fault ↔ ∃ visited node left,
      visits.StoppedAt p.dependenciesFirst visited node left trace fault) ∧
    (outcome = .ok () → ∀ e ∈ trace, e.Harmless) ∧
    ∀ fault, outcome = .error fault → EndsIn Exchange.Harmless (Exchange.Fatal fault) trace := by
  have hok : outcome = .ok () ↔ visits.Carried p.dependenciesFirst trace none := by
    rw [← p.performs_cloneSources.ok_iff]
    exact ⟨fun heq => heq ▸ h, Action.runs_unique h⟩
  have herror fault : outcome = .error fault ↔
      visits.Carried p.dependenciesFirst trace (some fault) := by
    rw [← p.performs_cloneSources.error_iff]
    exact ⟨fun heq => heq ▸ h, Action.runs_unique h⟩
  refine ⟨dependenciesFirst_eq, hok.trans Conduct.carried_none_iff,
    fun fault => (herror fault).trans Conduct.carried_some_iff, fun heq => ?_, fun fault heq => ?_⟩
  · exact (hok.mp heq).forall_exchange_of_done fun _ _ _ hvisit =>
      Git.Repository.Visit.harmless hvisit
  · exact ((herror fault).mp heq).endsIn (fun _ _ _ hvisit => Git.Repository.Visit.harmless hvisit)
      fun _ _ _ _ hvisit => Git.Repository.Visit.endsIn hvisit

/-- A machine on which the base is missing until something is cloned, the first library has no
usable clone, and the application cannot be pulled. -/
def halfClonedMachine (q : Request) (cloned : Bool) : q.Reply × Bool :=
  match q with
  | .isDirectory directory => (cloned || directory != ⟨"./base"⟩, cloned)
  | .run directory command =>
    if command.argv = ["git", "branch"] ∧ directory = ⟨"./left"⟩ ∨
        command.arguments.head? = some "pull" ∧ directory = ⟨"./app"⟩ then
      (.error (.commandFailed command.text 1 [] []), cloned)
    else (.ok (.ofLines ["* master"]), cloned || command.arguments.head? = some "clone")
  | q => ((Config.steadyMachine q ()).1, cloned)

/-- What is exchanged in an update of the application on it. -/
def applicationUpdate : List Exchange :=
  Action.traceWith halfClonedMachine application.cloneSources.attempt false

/-- The base is cloned and found the second time, the first library is cloned because its probe
fails, and the application, which comes last, stops the update. -/
theorem update_visits_dependencies_first_application :
    Action.Runs application.cloneSources.attempt applicationUpdate
      (.error (.commandFailed "git pull origin master" 1 [] [])) ∧
    application.dependenciesFirst.map (·.name) = ["base", "left", "base", "right", "app"] ∧
    (∃ visited node left, visits.StoppedAt application.dependenciesFirst visited node left
      applicationUpdate (.commandFailed "git pull origin master" 1 [] [])) ∧
    EndsIn Exchange.Harmless
      (Exchange.Fatal (.commandFailed "git pull origin master" 1 [] [])) applicationUpdate := by
  have hend : (Action.runWith halfClonedMachine application.cloneSources.attempt false).1 =
      .error (.commandFailed "git pull origin master" 1 [] []) := rfl
  have hrun : Action.Runs application.cloneSources.attempt applicationUpdate
      (.error (.commandFailed "git pull origin master" 1 [] [])) :=
    hend ▸ Action.runs_traceWith halfClonedMachine application.cloneSources.attempt false
  obtain ⟨-, -, hstopped, -, hends⟩ := update_visits_dependencies_first hrun
  exact ⟨hrun, rfl, (hstopped _).mp rfl, hends _ rfl⟩

end Project

end DaemonKeeper
