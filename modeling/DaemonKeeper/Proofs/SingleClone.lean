import DaemonKeeper.Proofs.FailedPasses
import DaemonKeeper.Proofs.TrackedBranches
set_option autoImplicit false

/-!
# A repository is cloned at most once (SPEC §3.2)

An update clones only after it has seen that there is no usable clone.  If a clone that has
succeeded lasts, nothing can be seen in its directory any more that would justify another one.  So
whatever leads to the directory later, another daemon, another project or another way through a
tree, finds the clone and pulls.
-/

namespace DaemonKeeper

open Git

variable {trace rest : List Exchange} {rs : List Repository}

/-! ## Clones -/

/-- A repository that is cloned into a directory. -/
def clone? : Path × List String → Option (Path × String)
  | (directory, ["git", "clone", url]) => some (directory, url)
  | _ => none

/-- The clone that has succeeded in an exchange: where it was run, and what was cloned. -/
def Exchange.cloned? : Exchange → Option (Path × String)
  | ⟨.run directory ⟨"git", ["clone", url]⟩, .ok _⟩ => some (directory, url)
  | _ => none

/-- A clone that has succeeded was asked for. -/
theorem Exchange.clone?_of_cloned? {e : Exchange} {clone : Path × String}
    (h : e.cloned? = some clone) : e.request.sends.bind clone? = some clone := by
  unfold Exchange.cloned? at h
  split at h
  · exact h
  · cases h

/-- What denies a clone asks for none. -/
theorem Exchange.clone?_of_deniedClone? {e : Exchange} {directory : Path}
    (h : e.deniedClone? = some directory) : e.request.sends.bind clone? = none := by
  unfold Exchange.deniedClone? at h
  split at h <;> first | rfl | cases h

/-- Recipes clone nothing. -/
theorem seesNoRecipe_clone? : SeesNoRecipe clone? where
  head _ _ := rfl
  plain s h := by
    refine Option.bind_eq_none_iff.mpr fun ⟨directory, words⟩ hsends => ?_
    unfold clone?
    split
    · rename_i hwords
      obtain ⟨rfl, rfl⟩ := Prod.mk.inj hwords
      exact absurd (h _ _ _ hsends) (by decide)
    · rfl

/-- Neither do polls. -/
theorem Git.Repository.silent_poll (r : Repository) :
    r.hasUpstreamChange.Only fun q => q.sends.bind clone? = none := by
  apply Repository.only_hasUpstreamChange.mono
  rintro _ ⟨⟩ <;> rfl

namespace Git.Repository

variable {r : Repository} {cloned : Bool} {outcome : Except Fault Unit}

/-- Where a clone is run, and what is cloned by it. -/
def clonePoint (r : Repository) : Path × String := (r.parent, r.remoteUrl)

/-- A look for a usable clone clones nothing. -/
theorem Looked.silent (h : r.Looked trace cloned) :
    ∀ e ∈ trace, e.request.sends.bind clone? = none := by
  cases h <;> simp [Request.sends, Command.argv, clone?]

/-- What is done in a visit after the clone was found or made. -/
theorem silent_pullAndCheckout (r : Repository) :
    Task.Only (fun q => q.sends.bind clone? = none) (do r.pull; r.checkout) := by
  refine .bind (.bind (only_gitEffect rfl) fun _ => ?_) fun _ => only_gitEffect rfl
  exact .bind (only_gitEffect rfl) fun _ => only_gitEffect rfl

/-- The visit of a repository by an update, with what is exchanged and its outcome. -/
inductive Visited (r : Repository) : List Exchange → Except Fault Unit → Prop where
  /-- There is a usable clone. -/
  | found {looking rest : List Exchange} {outcome : Except Fault Unit} :
    r.Looked looking true →
    Action.Runs (Task.attempt (do r.pull; r.checkout)) rest outcome →
    Visited r (looking ++ rest) outcome
  /-- There is none, and it cannot be cloned because its parent directory cannot be made. -/
  | refused {looking : List Exchange} {reply : Except IoFault Unit}
    {outcome : Except Fault Unit} :
    r.Looked looking false → Visited r (looking ++ [⟨.createDirectory r.parent, reply⟩]) outcome
  /-- There is none, and it is cloned. -/
  | cloned {looking rest : List Exchange} {made : Except IoFault Unit}
    {reply : Except Fault Output} {outcome : Except Fault Unit} :
    r.Looked looking false → (∀ e ∈ rest, e.request.sends.bind clone? = none) →
    Visited r (looking ++ ⟨.createDirectory r.parent, made⟩ ::
      ⟨.run r.parent ⟨"git", ["clone", r.remoteUrl]⟩, reply⟩ :: rest) outcome

/-- What a clone does once it is known whether there is a usable one. -/
def fetchSources (r : Repository) (cloned : Bool) : Task Unit :=
  if cloned then r.pull
  else do
    Task.ofIo (Action.request (.createDirectory r.parent))
    let _ ← Task.run r.parent ⟨"git", ["clone", r.remoteUrl]⟩
    r.updateSubmodules

/-- An update looks for a usable clone first, and that cannot fail. -/
theorem attempt_update_eq (r : Repository) :
    Task.attempt (do r.clone; r.checkout) = r.isCloned >>= fun cloned =>
      Task.attempt (r.fetchSources cloned >>= fun _ => r.checkout) := by
  show Task.attempt ((ExceptT.lift r.isCloned >>= r.fetchSources) >>= fun _ => r.checkout) = _
  rw [bind_assoc]
  exact ExceptT.run_bind_lift r.isCloned _

theorem visited_of_runs_update
    (h : Action.Runs (Task.attempt (do r.clone; r.checkout)) trace outcome) :
    r.Visited trace outcome := by
  rw [attempt_update_eq] at h
  obtain ⟨looking, rest, cloned, rfl, hlook, hrest⟩ := Action.runs_bind_iff.mp h
  have hlooked := looked_of_runs_isCloned hlook
  cases cloned with
  | true => exact .found hlooked hrest
  | false =>
    have hafter : Task.Only (fun q => q.sends.bind clone? = none)
        (do r.updateSubmodules; r.checkout) :=
      .bind (.bind (only_gitEffect rfl) fun _ => only_gitEffect rfl) fun _ => only_gitEffect rfl
    have hsteps : (r.fetchSources false >>= fun _ => r.checkout) =
        (Task.ofIo (Action.request (.createDirectory r.parent)) >>= fun _ =>
          Task.run r.parent ⟨"git", ["clone", r.remoteUrl]⟩ >>= fun _ =>
            do r.updateSubmodules; r.checkout) := by
      show ((_ >>= fun _ => (_ >>= fun _ => _)) >>= _) = _
      rw [bind_assoc, bind_assoc]
    rw [hsteps] at hrest
    rcases Task.runs_bind hrest with ⟨fault, hmake, rfl⟩ | ⟨make, more, _, rfl, hmake, hmore⟩
    · obtain ⟨cause, hmake, -⟩ := Task.runs_of_runs_ofIo_error hmake
      obtain rfl := Action.runs_request_iff.mp hmake
      exact .refused hlooked
    obtain rfl := Action.runs_request_iff.mp (Task.runs_of_runs_ofIo_ok hmake)
    rcases Task.runs_bind hmore with ⟨fault, hclone, rfl⟩ | ⟨clone, last, _, rfl, hclone, hlast⟩
    · obtain rfl := Action.runs_request_iff.mp hclone
      exact .cloned hlooked nofun
    · obtain rfl := Action.runs_request_iff.mp hclone
      exact .cloned hlooked (Action.Only.of_runs hafter hlast)

/-- The commands of a visit that finds a usable clone. -/
def revisitPlan (r : Repository) : List BuildStep :=
  [["git", "branch"], ["git", "pull", "origin", r.branch], ["git", "submodule", "init"],
    ["git", "submodule", "update"], ["git", "checkout", r.branch]].map (.command r.directory)

/-- A visit that finds a usable clone sends these commands in order, up to the first that fails. -/
structure Revisited (r : Repository) (trace : List Exchange) (outcome : Except Fault Unit) :
    Prop where
  commands : ∃ rest, trace = ⟨.isDirectory r.directory, true⟩ :: rest ∧
    (outcome = .ok () ∧ BuildStep.conduct.Carried r.revisitPlan rest none ∨
      ∃ fault, outcome = .error fault ∧
        BuildStep.conduct.Carried r.revisitPlan rest (some fault))
  silent : ∀ e ∈ trace, e.request.sends.bind clone? = none

/-- Pulling and checking out takes the commands after the first. -/
theorem takes_pullAndCheckout (r : Repository) :
    Task.Takes (do r.pull; r.checkout) (r.revisitPlan.drop 1) := by
  have hpull : r.pull.Takes ((r.revisitPlan.drop 1).take 3) :=
    (Build.takes_effect r.directory ⟨"git", ["pull", "origin", r.branch]⟩).bind fun _ _ =>
      (Build.takes_effect r.directory ⟨"git", ["submodule", "init"]⟩).bind fun _ _ =>
        Build.takes_effect r.directory ⟨"git", ["submodule", "update"]⟩
  exact hpull.bind fun _ _ => Build.takes_effect r.directory ⟨"git", ["checkout", r.branch]⟩

theorem Visited.revisited (h : r.Visited trace outcome)
    (hkept : ∀ e ∈ trace, e.deniedClone? ≠ some r.directory) : r.Revisited trace outcome := by
  have hfound : ∀ {looking rest : List Exchange},
      (∀ e ∈ looking ++ rest, e.deniedClone? ≠ some r.directory) → ¬ r.Looked looking false := by
    intro looking rest hkept hlooked
    obtain ⟨sooner, denial, rfl, hdenied⟩ := hlooked.exists_denial
    exact hkept denial (by simp) hdenied
  cases h with
  | refused hlooked => exact absurd hlooked (hfound hkept)
  | cloned hlooked _ => exact absurd hlooked (hfound hkept)
  | @found looking rest _ hlooked hrest =>
    refine ⟨?_, List.forall_mem_append.mpr ⟨hlooked.silent,
      Action.Only.of_runs r.silent_pullAndCheckout hrest⟩⟩
    cases hlooked with
    | @usable output =>
      refine ⟨⟨.run r.directory ⟨"git", ["branch"]⟩, .ok output⟩ :: rest, rfl, ?_⟩
      have hbranch : BuildStep.Done (.command r.directory (Command.argv ⟨"git", ["branch"]⟩))
          [⟨.run r.directory ⟨"git", ["branch"]⟩, .ok output⟩] := .command
      have hstep : ∀ {stopped}, BuildStep.conduct.Carried (r.revisitPlan.drop 1) rest stopped →
          BuildStep.conduct.Carried r.revisitPlan ([_] ++ rest) stopped := fun hcarried =>
        .step hbranch hcarried
      cases outcome with
      | ok => exact .inl ⟨rfl, hstep (r.takes_pullAndCheckout.ok _ _ hrest).2⟩
      | error fault => exact .inr ⟨fault, rfl, hstep (r.takes_pullAndCheckout.error _ _ hrest)⟩

end Git.Repository

/-! ## Clones that are justified -/

/-- Every clone that is asked for is that of one of some repositories.  Before it something has
denied that there is a usable clone in its directory, and nothing was cloned in between. -/
def Justified (rs : List Repository) (trace : List Exchange) : Prop :=
  ∀ before e after, trace = before ++ e :: after →
    ∀ point, e.request.sends.bind clone? = some point → ∃ r ∈ rs, r.clonePoint = point ∧
      ∃ sooner denial later, before = sooner ++ denial :: later ∧
        denial.deniedClone? = some r.directory ∧
        ∀ e' ∈ later, e'.request.sends.bind clone? = none

/-- Where nothing is cloned there is nothing to justify. -/
theorem justified_of_silent (h : ∀ e ∈ trace, e.request.sends.bind clone? = none) :
    Justified rs trace := by
  rintro before e after rfl point hpoint
  rw [h e (by simp)] at hpoint
  cases hpoint

/-- Two traces in which every clone is justified make one. -/
theorem composes_justified : Composes (Justified rs) where
  nil before e after h := by simp at h
  append {first second} hfirst hsecond := by
    intro before e after h point hpoint
    rcases append_eq_append_cons_iff.mp h with ⟨middle, rfl, -⟩ | ⟨middle, rfl, rfl⟩
    · exact hfirst before e middle rfl point hpoint
    · obtain ⟨r, hr, rfl, sooner, denial, later, rfl, hdenied, hlater⟩ :=
        hsecond middle e after rfl point hpoint
      exact ⟨r, hr, rfl, first ++ sooner, denial, later, by simp, hdenied, hlater⟩

/-- In a visit only the repository itself is cloned, after it was seen that this is needed. -/
theorem Git.Repository.Visited.justified {r : Repository} {outcome : Except Fault Unit}
    (h : r.Visited trace outcome) (hr : r ∈ rs) : Justified rs trace := by
  cases h with
  | found hlooked hrest =>
    apply justified_of_silent
    exact List.forall_mem_append.mpr
      ⟨hlooked.silent, Action.Only.of_runs r.silent_pullAndCheckout hrest⟩
  | refused hlooked =>
    apply justified_of_silent
    exact List.forall_mem_append.mpr ⟨hlooked.silent, List.forall_mem_singleton.mpr rfl⟩
  | @cloned looking rest made reply _ hlooked hrest =>
    intro before e after h point hpoint
    have hquiet : ∀ e ∈ looking ++ [⟨.createDirectory r.parent, made⟩],
        e.request.sends.bind clone? = none :=
      List.forall_mem_append.mpr ⟨hlooked.silent, List.forall_mem_singleton.mpr rfl⟩
    rw [List.append_cons] at h
    -- The exchange neither comes before the clone nor after it.
    rcases append_eq_append_cons_iff.mp h with ⟨middle, hfirst, -⟩ | ⟨middle, rfl, hsecond⟩
    · rw [hquiet e (by rw [hfirst]; simp)] at hpoint
      cases hpoint
    rcases List.cons_eq_append_iff.mp hsecond with ⟨rfl, hclone⟩ | ⟨tail, rfl, hafter⟩
    · cases hclone
      cases hpoint
      obtain ⟨sooner, denial, rfl, hdenied⟩ := hlooked.exists_denial
      refine ⟨r, hr, rfl, sooner, denial, [⟨.createDirectory r.parent, made⟩], by simp, hdenied, ?_⟩
      exact List.forall_mem_singleton.mpr rfl
    · rw [hrest e (by rw [hafter]; simp)] at hpoint
      cases hpoint

/-! ## Clones that last -/

section

variable {π : Type}

/-- A clone of one of the repositories has succeeded at a place. -/
def ClonedAt (place : Path → π) (rs : List Repository) (trace : List Exchange) (x : π) :
    Prop :=
  ∃ r ∈ rs, r.clonePoint ∈ trace.filterMap Exchange.cloned? ∧ place r.directory = x

/-- Once a clone has succeeded at a place, nothing denies that there is a usable clone. -/
def ClonesLast (place : Path → π) (rs : List Repository) (trace : List Exchange) : Prop :=
  ∀ before e after, trace = before ++ e :: after →
    ∀ directory ∈ e.deniedClone?, ¬ ClonedAt place rs before (place directory)

instance [DecidableEq π] {place : Path → π} {x : π} :
    Decidable (ClonedAt place rs trace x) :=
  inferInstanceAs (Decidable (∃ r ∈ rs, _ ∧ _))

instance [DecidableEq π] {place : Path → π} : Decidable (ClonesLast place rs trace) :=
  decidable_of_iff _ (forall_exchange_iff_forall_lt (P := fun before e =>
    ∀ directory ∈ e.deniedClone?, ¬ ClonedAt place rs before (place directory)))

end

section

variable {π : Type} {place : Path → π} {x : π}

theorem ClonedAt.append (h : ClonedAt place rs trace x) (rest : List Exchange) :
    ClonedAt place rs (trace ++ rest) x := by
  obtain ⟨r, hr, hcloned, hplace⟩ := h
  refine ⟨r, hr, ?_, hplace⟩
  rw [List.filterMap_append]
  exact List.mem_append_left _ hcloned

/-- Repositories that are cloned with one command in one place have one directory. -/
def OneDirectoryEach (rs : List Repository) : Prop :=
  ∀ r ∈ rs, ∀ r' ∈ rs, r.clonePoint = r'.clonePoint →
    r.directory = r'.directory

/-- If every clone is justified and clones last, none is asked for where one has succeeded. -/
theorem Justified.not_clonedAt (h : Justified rs trace)
    (hone : OneDirectoryEach rs) (hlast : ClonesLast place rs trace)
    {before after : List Exchange} {e : Exchange} (htrace : trace = before ++ e :: after)
    {r : Repository} (hr : r ∈ rs)
    (hasked : e.request.sends.bind clone? = some r.clonePoint) :
    ¬ ClonedAt place rs before (place r.directory) := by
  obtain ⟨r', hr', hpoint, sooner, denial, later, rfl, hdenied, hlater⟩ :=
    h before e after htrace _ hasked
  have hdirectory := hone r' hr' r hr hpoint
  rw [List.append_assoc, List.cons_append] at htrace
  have hnone := hlast sooner denial (later ++ e :: after) htrace r'.directory hdenied
  rw [hdirectory] at hnone
  rintro ⟨r₁, hr₁, hcloned, hplace⟩
  apply hnone
  refine ⟨r₁, hr₁, ?_, hplace⟩
  -- What has succeeded is not the denial, nor anything after it.
  obtain ⟨e₁, he₁, hclone⟩ := List.mem_filterMap.mp hcloned
  have hasked₁ := Exchange.clone?_of_cloned? hclone
  rcases List.mem_append.mp he₁ with hsooner | hrest
  · exact List.mem_filterMap.mpr ⟨e₁, hsooner, hclone⟩
  rcases List.mem_cons.mp hrest with rfl | hlate
  · rw [Exchange.clone?_of_deniedClone? hdenied] at hasked₁
    cases hasked₁
  · rw [hlater e₁ hlate] at hasked₁
    cases hasked₁

/-- A visit of a place where a clone has succeeded finds it. -/
theorem revisited_of_clonedAt {before visit after : List Exchange} {r : Repository}
    {outcome : Except Fault Unit} (hlast : ClonesLast place rs trace)
    (htrace : trace = before ++ (visit ++ after))
    (hvisit : Action.Runs (Task.attempt (do r.clone; r.checkout)) visit outcome)
    (hcloned : ClonedAt place rs before (place r.directory)) :
    r.Revisited visit outcome := by
  apply (Repository.visited_of_runs_update hvisit).revisited
  intro e he hdenied
  obtain ⟨sooner, later, rfl⟩ := List.append_of_mem he
  refine hlast (before ++ sooner) e (later ++ after) ?_ r.directory hdenied (hcloned.append sooner)
  rw [htrace]
  simp

end

/-! ## Passes -/

namespace Project

variable {p : Project}

/-- The repositories of the nodes of a tree. -/
def repositories (p : Project) : List Repository := p.dependenciesFirst.map (·.repository)

/-- Every clone of an update is justified. -/
theorem justified_of_runs_cloneSources {outcome : Except Fault Unit}
    (hsub : p.repositories ⊆ rs)
    (h : Action.Runs p.cloneSources.attempt trace outcome) : Justified rs trace := by
  refine p.follows_update.composes composes_justified (fun node hnode part result hpart => ?_) h
  exact (Repository.visited_of_runs_update hpart).justified
    (hsub (List.mem_map_of_mem (f := (·.repository)) hnode))

theorem silent_of_runs_hasUpstreamChange {outcome : Except Fault Bool}
    (h : Action.Runs p.hasUpstreamChange.attempt trace outcome) :
    ∀ e ∈ trace, e.request.sends.bind clone? = none :=
  p.asks_hasUpstreamChange.forall_exchange (fun node _ _ _ hpart =>
    Action.Only.of_runs node.repository.silent_poll hpart) h

end Project

namespace Supervisor

variable {d d' : Daemon} {s s' : Supervisor} {buildName : String}

/-- The repositories in the trees of some daemons. -/
def repositories (ds : List Daemon) : List Repository := ds.flatMap (·.project.repositories)

theorem repositories_eq (ds : List Daemon) :
    Supervisor.repositories ds = (ds.map (·.project)).flatMap Project.repositories := by
  rw [List.flatMap_map]
  rfl

/-- One of the two passes that build. -/
def BuildPass.perform (pass : BuildPass) (buildName : String) (s : Supervisor) :
    Action (Except Fault Unit × Supervisor) :=
  match pass with
  | .all => s.buildAll buildName
  | .changed => do
    let (outcome, s) ← s.rebuildChanged buildName
    return (outcome.map fun _ => (), s)

/-- One such pass after another, each with its build name and whatever becomes of it. -/
def performAll : List (BuildPass × String) → Supervisor → Action Supervisor
  | [], s => pure s
  | (pass, buildName) :: rest, s => do
    let (_, s) ← pass.perform buildName s
    performAll rest s

/-- Every clone of a pass is justified, and the daemons keep their trees. -/
theorem justified_of_runs_perform {pass : BuildPass} {outcome : Except Fault Unit}
    (hsub : Supervisor.repositories s.daemons ⊆ rs)
    (h : Action.Runs (pass.perform buildName s) trace (outcome, s')) :
    Justified rs trace ∧
      s'.daemons.map (·.project) = s.daemons.map (·.project) := by
  have hupdate : ∀ d ∈ s.daemons, ∀ update updated,
      Action.Runs d.cloneSources.attempt update updated → Justified rs update := by
    intro d hd update updated hruns
    refine Project.justified_of_runs_cloneSources (fun r hr => hsub ?_) hruns
    exact List.mem_flatMap.mpr ⟨d, hd, hr⟩
  have hbuild : ∀ (d : Daemon) recipe built,
      Action.Runs (d.buildBinary buildName).attempt recipe built →
      Justified rs recipe := fun d recipe built hruns =>
    justified_of_silent (silent_of_runs_buildBinary seesNoRecipe_clone? hruns)
  have hpoll : ∀ (d : Daemon) poll polled, Action.Runs d.hasUpstreamChange.attempt poll polled →
      Justified rs poll := fun d poll polled hruns =>
    justified_of_silent (Project.silent_of_runs_hasUpstreamChange hruns)
  cases pass with
  | all =>
    obtain ⟨log, answers, ds', rfl, htour, rfl, -⟩ := tour_of_runs_eachDaemonEffect h
    apply htour.composes composes_justified
    intro _ d hd turn answer d' hturn
    refine ⟨?_, composes_refresh composes_justified (hupdate d hd) (hbuild d) hturn⟩
    rw [(Turn.refreshed hturn).attended.same]
  | changed =>
    obtain ⟨pass, last, ⟨answers, s₁⟩, rfl, hpass, hend⟩ := Action.runs_bind_iff.mp h
    obtain ⟨rfl, -, rfl⟩ := Action.runs_pure_pair_iff.mp hend
    obtain ⟨log, ds', rfl, htour, rfl⟩ := tour_of_runs_eachDaemon hpass
    rw [List.append_nil]
    apply htour.composes composes_justified
    intro _ d hd turn answer d' hturn
    refine ⟨?_, composes_rebuildDaemon composes_justified (hpoll d) (hupdate d hd) (hbuild d) hturn⟩
    rw [(Turn.rebuilt hturn).attended.same]

/-- So is every clone of several passes in turn. -/
theorem justified_of_runs_performAll {passes : List (BuildPass × String)}
    (hsub : Supervisor.repositories s.daemons ⊆ rs)
    (h : Action.Runs (performAll passes s) trace s') : Justified rs trace := by
  induction passes generalizing s trace with
  | nil =>
    obtain ⟨rfl, -⟩ := Action.runs_pure_iff.mp h
    exact composes_justified.nil
  | cons first passes ih =>
    obtain ⟨pass, later, ⟨outcome, s₁⟩, rfl, hpass, hlater⟩ := Action.runs_bind_iff.mp h
    obtain ⟨hjustified, hprojects⟩ := justified_of_runs_perform hsub hpass
    refine composes_justified.append hjustified (ih ?_ hlater)
    rw [repositories_eq, hprojects, ← repositories_eq]
    exact hsub

/-! ## Supervisors of configurations -/

variable {cfg : Config} {cpus : Nat}

/-- The repositories of a configuration differ in their names and branches only, and the name is
part of what is cloned. -/
theorem directory_eq_of_clonePoint_eq {spec spec' : ProjectSpec}
    (h : (Project.repositoryOf cfg spec).clonePoint =
      (Project.repositoryOf cfg spec').clonePoint) :
    (Project.repositoryOf cfg spec).directory = (Project.repositoryOf cfg spec').directory := by
  have hurl := congrArg (fun point => point.2.toList) h
  simp only [Git.Repository.clonePoint, Git.Repository.remoteUrl, Project.repositoryOf,
    String.toList_append, List.append_assoc, List.append_cancel_left_eq] at hurl
  have hname := String.toList_injective (List.append_cancel_right hurl)
  simp only [Git.Repository.directory, Project.repositoryOf, hname]

/-- So what is cloned tells the directory. -/
theorem oneDirectoryEach_of_ofConfig (hconfig : cfg.toSections.Resolvable)
    (h : ofConfig cfg cpus = .ok s) : OneDirectoryEach (Supervisor.repositories s.daemons) := by
  have hof : ∀ r ∈ Supervisor.repositories s.daemons, ∃ spec, r = Project.repositoryOf cfg spec := by
    intro r hr
    obtain ⟨d, hd, hr⟩ := List.mem_flatMap.mp hr
    obtain ⟨node, hnode, rfl⟩ := List.mem_map.mp hr
    obtain ⟨ds, hds, hs⟩ := bind_eq_ok_iff.mp h
    obtain rfl := Except.ok.inj hs
    obtain ⟨entry, -, hentry⟩ := mem_of_mapM_ok hds hd
    obtain ⟨tree, htree, rfl⟩ := daemonOf_eq_ok_iff.mp hentry
    have hmem : node ∈ tree.rootFirst :=
      tree.rootFirst_perm_dependenciesFirst.mem_iff.mpr hnode
    have hshows := (Project.unfolding_of_resolve hconfig htree).nodes node
      (Project.contains_of_mem_rootFirst tree hmem)
    exact ⟨node.spec, hshows.repository⟩
  intro r hr r' hr' hpoint
  obtain ⟨spec, rfl⟩ := hof r hr
  obtain ⟨spec', rfl⟩ := hof r' hr'
  exact directory_eq_of_clonePoint_eq hpoint

/-! ## The main result -/

/-- The supervisor of an accepted configuration goes through any passes that build, on a machine
where a clone that has succeeded lasts: from then on its directory is there, by whatever path it is
reached, and git names a current branch in it.  Then, whatever else the machine replies:

* only repositories of the daemons' trees are cloned, and where a clone has succeeded no other one
  is asked for any more, so that at most one succeeds for each directory; and
* an update of a tree visits its nodes in order, dependencies first, and every visit of a directory
  after a clone has succeeded there sends the commands of `revisitPlan` in order, up to the first
  that fails, and clones nothing. -/
theorem cloned_at_most_once {sections : Sections} (hvalid : sections.validate = .ok cfg)
    (hconfig : ofConfig cfg cpus = .ok s) {π : Type} {place : Path → π}
    {passes : List (BuildPass × String)} (h : Action.Runs (performAll passes s) trace s')
    (hlast : ClonesLast place (Supervisor.repositories s.daemons) trace) :
    (∀ before e after, trace = before ++ e :: after →
      ∀ point, e.request.sends.bind clone? = some point →
        ∃ r ∈ Supervisor.repositories s.daemons, r.clonePoint = point ∧
          ¬ ClonedAt place (Supervisor.repositories s.daemons) before (place r.directory)) ∧
    (∀ d ∈ s.daemons,
      d.cloneSources.Follows (.ofTasks Project.update) d.project.dependenciesFirst fun _ => True) ∧
    ∀ before visit after (node : Project) outcome, trace = before ++ (visit ++ after) →
      Action.Runs node.update.attempt visit outcome →
      ClonedAt place (Supervisor.repositories s.daemons) before
        (place node.repository.directory) →
      node.repository.Revisited visit outcome := by
  have hone := oneDirectoryEach_of_ofConfig (Sections.resolvable_of_validate hvalid) hconfig
  have hjustified : Justified (Supervisor.repositories s.daemons) trace :=
    justified_of_runs_performAll (List.Subset.refl _) h
  refine ⟨?_, fun d _ => d.project.follows_update, ?_⟩
  · intro before e after htrace point hpoint
    obtain ⟨r, hr, rfl, -⟩ := hjustified before e after htrace point hpoint
    exact ⟨r, hr, rfl, hjustified.not_clonedAt hone hlast htrace hr hpoint⟩
  · intro before visit after node outcome htrace hvisit hcloned
    exact revisited_of_clonedAt hlast htrace hvisit hcloned

/-- Two daemons of projects that share a directory are built, polled and built again on a machine
whose workspace starts out empty. -/
def forkedPasses : List Exchange :=
  Action.traceWith forkedMachine
    (performAll [(.all, "build-1"), (.changed, "build-2"), (.all, "build-3")] forked) none

/-- The first daemon clones the repository, and the visit of the second finds the clone. -/
theorem cloned_at_most_once_forked :
    (forkedSections.validate = .ok forkedConfig ∧ ofConfig forkedConfig 1 = .ok forked) ∧
    ClonesLast id (Supervisor.repositories forked.daemons) forkedPasses ∧
    forkedPasses.filterMap Exchange.cloned? = [(⟨"."⟩, "git@github.com:acme/svc.git")] ∧
    ∃ before visit after, forkedPasses = before ++ (visit ++ after) ∧
      ClonedAt id (Supervisor.repositories forked.daemons) before ⟨"./svc"⟩ ∧
      (forkedProject "next" "dev").repository.Revisited visit (.ok ()) := by
  obtain ⟨hvalid, hconfig⟩ := ofConfig_forked
  have hlast : ClonesLast id (Supervisor.repositories forked.daemons) forkedPasses := by
    decide +kernel
  have hcloned : ClonedAt id (Supervisor.repositories forked.daemons) (forkedPasses.take 9)
      ⟨"./svc"⟩ := by decide +kernel
  have hsplit : forkedPasses =
      forkedPasses.take 9 ++ ((forkedPasses.drop 9).take 6 ++ (forkedPasses.drop 9).drop 6) := by
    rw [List.take_append_drop, List.take_append_drop]
  have hvisit : Action.Runs (forkedProject "next" "dev").update.attempt
      ((forkedPasses.drop 9).take 6) (.ok ()) := Action.runs_of_replay rfl
  obtain ⟨-, -, hrevisited⟩ := cloned_at_most_once hvalid hconfig
    (Action.runs_traceWith forkedMachine (performAll _ forked) none) hlast
  exact ⟨⟨hvalid, hconfig⟩, hlast, by decide +kernel, _, _, _, hsplit, hcloned,
    hrevisited _ _ _ (forkedProject "next" "dev") _ hsplit hvisit hcloned⟩

end Supervisor

end DaemonKeeper
