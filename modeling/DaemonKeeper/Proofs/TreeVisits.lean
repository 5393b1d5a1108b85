import DaemonKeeper.Proofs.BuildPlan
import DaemonKeeper.Proofs.TaskRequests
import DaemonKeeper.Proofs.TreeOrder
set_option autoImplicit false

/-!
# Polls, updates and builds visit the same nodes (SPEC §3.3)

A poll goes through a tree from its root, an update and a build from its leaves, and each treats
every node on its own.  So all three treat a project as often as there are walks to it, and each
time with one command that tells: a poll fetches, an update checks out, a build looks up the head.
-/

namespace DaemonKeeper

/-! ## Commands that tell -/

variable {α β γ : Type} {look : Path × List String → Option γ}

/-- What is seen in a trace when only certain commands are looked at. -/
def seen (look : Path × List String → Option γ) (trace : List Exchange) : List γ :=
  (sent trace).filterMap look

theorem seen_append (first second : List Exchange) :
    seen look (first ++ second) = seen look first ++ seen look second := by
  unfold seen sent
  rw [List.filterMap_append, List.filterMap_append]

/-- One command shows what it is taken for. -/
theorem seen_run {directory : Path} {command : Command} {reply : Except Fault Output} :
    seen look [⟨.run directory command, reply⟩] = (look (directory, command.argv)).toList := by
  show List.filterMap look [(directory, command.argv)] = _
  rw [List.filterMap_cons]
  cases look (directory, command.argv) <;> rfl

/-- Every run of a task that succeeds shows the same. -/
def Task.Emits (look : Path × List String → Option γ) (t : Task α) (shown : List γ) : Prop :=
  ∀ trace a, Action.Runs t.attempt trace (.ok a) → seen look trace = shown

/-- A task of which no command is looked at. -/
abbrev Task.Silent (look : Path × List String → Option γ) (t : Task α) : Prop :=
  t.Only fun q => q.sends.bind look = none

namespace Task.Emits

variable {shown more : List γ}

theorem bind {x : Task α} {f : α → Task β} (hx : Emits look x shown)
    (hf : ∀ a, Emits look (f a) more) : Emits look (x >>= f) (shown ++ more) := by
  intro trace b hrun
  obtain ⟨first, second, a, rfl, hfirst, hsecond⟩ := Task.runs_bind_ok_iff.mp hrun
  rw [seen_append, hx first a hfirst, hf a second b hsecond]

theorem of_silent {t : Task α} (h : t.Silent look) : Emits look t [] := by
  intro trace a hrun
  have hnone := Action.Only.of_runs h hrun
  unfold seen sent
  rw [List.filterMap_filterMap, List.filterMap_eq_nil_iff]
  exact hnone

/-- What is silent afterwards does not matter. -/
theorem bind_silent {x : Task α} {f : α → Task β} (hx : Emits look x shown)
    (hf : ∀ a, (f a).Silent look) : Emits look (x >>= f) shown := by
  have h := hx.bind fun a => of_silent (hf a)
  rwa [List.append_nil] at h

/-- Neither does what is silent before. -/
theorem silent_bind {x : Task α} {f : α → Task β} (hx : x.Silent look)
    (hf : ∀ a, Emits look (f a) shown) : Emits look (x >>= f) shown :=
  (of_silent hx).bind hf

theorem gitEffect (r : Git.Repository) (arguments : List String) :
    Emits look (r.gitEffect arguments) (look (r.directory, "git" :: arguments)).toList := by
  refine bind_silent (fun trace output hrun => ?_) fun _ => .pure ()
  obtain rfl := Action.runs_request_iff.mp hrun
  exact seen_run

end Task.Emits

/-- A fetch from the remotes, in a checkout. -/
def fetch? : Path × List String → Option Path
  | (directory, ["git", "remote", "update"]) => some directory
  | _ => none

/-- A branch that is checked out, in a checkout. -/
def checkout? : Path × List String → Option (Path × String)
  | (directory, ["git", "checkout", branch]) => some (directory, branch)
  | _ => none

/-- A reference that is looked up, in a checkout. -/
def lookUp? : Path × List String → Option (Path × String)
  | (directory, ["git", "rev-parse", reference]) => some (directory, reference)
  | _ => none

/-! ## One node -/

namespace Git.Repository

variable (r : Git.Repository)

/-- A poll that is answered has fetched once. -/
theorem emits_hasUpstreamChange : r.hasUpstreamChange.Emits fetch? [r.directory] := by
  have hupstream : r.upstream.Emits fetch? [r.directory] := by
    refine .bind_silent (.gitEffect r ["remote", "update"]) fun _ => ?_
    refine Task.Only.bind (only_headCommit rfl) fun _ => ?_
    refine Task.Only.bind (only_headCommit rfl) fun _ => ?_
    exact Task.Only.bind (only_mergeBase rfl) fun _ => .pure _
  exact hupstream.bind_silent fun upstream => only_judge upstream

/-- An update that succeeds has checked out once. -/
theorem emits_update :
    Task.Emits checkout? (do r.clone; r.checkout) [(r.directory, r.branch)] := by
  refine .silent_bind (only_clone.mono ?_) fun _ => .gitEffect r ["checkout", r.branch]
  rintro _ ⟨⟩ <;> rfl

end Git.Repository

/-- The step looks nothing up. -/
def BuildStep.LooksAway (s : BuildStep) : Prop := s.sends.bind lookUp? = none

/-- The step runs no git command with one argument, unless a privilege prefix makes one of the two
words of an installation. -/
def BuildStep.Plain (s : BuildStep) : Prop :=
  ∀ directory verb reference, s.sends = some (directory, ["git", verb, reference]) → verb = "make"

namespace BuildStep

variable {directory : Path} {words privilegePrefix : List String}

theorem plain_command (h : ∀ verb reference, words = ["git", verb, reference] → verb = "make") :
    (command directory words).Plain := by
  intro directory' verb reference hsends
  exact h verb reference (Prod.mk.inj (Option.some.inj hsends)).2

theorem plain_cmake : (command directory ("cmake" :: words)).Plain :=
  plain_command fun _ _ h => by simp at h

theorem plain_make : (command directory ("make" :: words)).Plain :=
  plain_command fun _ _ h => by simp at h

/-- Whatever the privilege prefix is, an installation is plain. -/
theorem plain_install : (command directory (privilegePrefix ++ ["make", "install"])).Plain := by
  refine plain_command fun verb reference h => ?_
  have hsplit : privilegePrefix ++ ["make", "install"] = ["git"] ++ [verb, reference] := h
  have hend := List.append_inj_right' hsplit rfl
  exact (List.cons.inj hend).1.symm

theorem plain_prepare : (prepare directory).Plain := by
  intro directory' verb reference hsends
  cases hsends

/-- A plain step looks nothing up. -/
theorem Plain.looksAway {s : BuildStep} (h : s.Plain) : s.LooksAway := by
  refine Option.bind_eq_none_iff.mpr fun ⟨directory, words⟩ hsends => ?_
  unfold lookUp?
  split
  · rename_i hwords
    obtain ⟨rfl, rfl⟩ := Prod.mk.inj hwords
    exact absurd (h _ _ _ hsends) (by decide)
  · rfl

end BuildStep

theorem lookUps_eq_nil {plan : List BuildStep} (h : ∀ s ∈ plan, s.LooksAway) :
    (planned plan).filterMap lookUp? = [] := by
  unfold planned
  rw [List.filterMap_filterMap, List.filterMap_eq_nil_iff]
  exact h

/-- Every step of a vendored library is plain. -/
theorem Build.Vendored.plain_of_mem_plan (v : Build.Vendored) (buildName : String) :
    ∀ s ∈ v.plan buildName, s.Plain := by
  unfold plan
  simp only [List.forall_mem_cons]
  exact ⟨BuildStep.plain_make, BuildStep.plain_prepare, BuildStep.plain_cmake,
    BuildStep.plain_make, BuildStep.plain_install, nofun⟩

namespace Project

variable (p : Project) (buildName : String)

/-- So is every step of the project itself. -/
theorem plain_of_mem_selfPlan : ∀ s ∈ p.selfPlan buildName, s.Plain := by
  have hinstall directory : ∀ s ∈ (if p.spec.install then
      [BuildStep.command directory (p.privilegePrefix ++ ["make", "install"])] else []),
      s.Plain := by
    split
    · exact List.forall_mem_singleton.mpr BuildStep.plain_install
    · exact nofun
  unfold selfPlan
  split
  · rw [List.forall_mem_append]
    simp only [List.forall_mem_cons]
    refine ⟨⟨BuildStep.plain_prepare, BuildStep.plain_cmake, BuildStep.plain_make, ?_⟩,
      hinstall _⟩
    exact nofun
  · rw [List.forall_mem_cons]
    exact ⟨BuildStep.plain_make, hinstall _⟩

/-- A recipe without its dependencies looks a head up, and the other steps are plain. -/
theorem ownPlan_eq_cons : ∃ rest, (∀ s ∈ rest, BuildStep.Plain s) ∧
    p.ownPlan buildName = .lookUp p.repository.directory p.spec.branch :: rest := by
  refine ⟨_, ?_, rfl⟩
  refine List.forall_mem_append.mpr ?_
  rw [List.forall_mem_flatMap]
  refine ⟨fun relative _ => ?_, p.plain_of_mem_selfPlan buildName⟩
  exact (p.vendoredLibrary relative).plain_of_mem_plan buildName

/-- A recipe without its dependencies looks one head up. -/
theorem lookUps_ownPlan :
    (planned (p.ownPlan buildName)).filterMap lookUp? =
      [(p.repository.directory, p.spec.branch)] := by
  obtain ⟨rest, hplain, hplan⟩ := p.ownPlan_eq_cons buildName
  have hrest : (planned rest).filterMap lookUp? = [] :=
    lookUps_eq_nil fun s hs => (hplain s hs).looksAway
  rw [hplan]
  show (planned ([_] ++ rest)).filterMap lookUp? = _
  rw [planned_append, List.filterMap_append, hrest]
  rfl

/-- A build that succeeds has looked the head up once. -/
theorem emits_buildOwn :
    (p.buildOwn buildName).Emits lookUp? [(p.repository.directory, p.spec.branch)] := by
  intro trace path hrun
  obtain ⟨-, hcarried⟩ := (p.follows_buildOwn buildName).ok trace path hrun
  unfold seen
  rw [BuildStep.sent_of_carried hcarried]
  exact p.lookUps_ownPlan buildName

/-! ## Whole trees -/

/-- The part of an update that is about the node itself. -/
def update (p : Project) : Task Unit := do
  p.repository.clone
  p.repository.checkout

/-- The part of a poll that is about the node itself. -/
def poll (p : Project) : Task Bool := p.repository.hasUpstreamChange

mutual
/-- An update of a tree updates its nodes one after the other, dependencies first. -/
theorem cloneSources_eq_forM (p : Project) : p.cloneSources = forM p.dependenciesFirst update :=
  match p with
  | ⟨_, _, _, dependencies, _, _⟩ => by
    unfold cloneSources dependenciesFirst
    rw [List.forM_append, ← cloneAll_eq_forM dependencies, List.forM_cons, List.forM_nil,
      bind_pure_unit]
    rfl

theorem cloneAll_eq_forM (ps : List Project) :
    cloneAll ps = forM (allDependenciesFirst ps) update :=
  match ps with
  | [] => by
    unfold cloneAll allDependenciesFirst
    rfl
  | p :: rest => by
    unfold cloneAll allDependenciesFirst
    rw [List.forM_append, ← cloneSources_eq_forM p, ← cloneAll_eq_forM rest]
end

theorem follows_update (p : Project) :
    p.cloneSources.Follows (.ofTasks update) p.dependenciesFirst fun _ => True := by
  rw [cloneSources_eq_forM]
  exact (Task.Performs.forM (.task update) p.dependenciesFirst).follows

mutual
/-- A build takes the nodes in order, dependencies first. -/
theorem follows_recipe (p : Project) (buildName : String) :
    (p.build buildName).Follows (.ofTasks (·.buildOwn buildName)) p.dependenciesFirst
      fun _ => True :=
  match p with
  | ⟨_, _, _, dependencies, _, _⟩ => by
    unfold build dependenciesFirst
    exact (follows_recipes dependencies buildName).bind fun _ _ => .task (buildOwn · buildName) _

theorem follows_recipes (ps : List Project) (buildName : String) :
    (buildAll ps buildName).Follows (.ofTasks (·.buildOwn buildName)) (allDependenciesFirst ps)
      fun _ => True :=
  match ps with
  | [] => by
    unfold buildAll allDependenciesFirst
    exact .pure trivial
  | p :: rest => by
    unfold buildAll allDependenciesFirst
    exact (follows_recipe p buildName).bind fun _ _ => follows_recipes rest buildName
end

mutual
/-- A poll of a tree asks its nodes one after the other, the root first. -/
theorem hasUpstreamChange_eq_anyM (p : Project) : p.hasUpstreamChange = p.rootFirst.anyM poll :=
  match p with
  | ⟨_, _, _, dependencies, _, _⟩ => by
    unfold hasUpstreamChange rootFirst
    rw [List.anyM_cons, ← anyUpstreamChange_eq_anyM dependencies]
    rfl

theorem anyUpstreamChange_eq_anyM (ps : List Project) :
    anyUpstreamChange ps = (allRootFirst ps).anyM poll :=
  match ps with
  | [] => by
    unfold anyUpstreamChange allRootFirst
    rfl
  | p :: rest => by
    unfold anyUpstreamChange allRootFirst
    rw [Task.anyM_append, ← hasUpstreamChange_eq_anyM p, ← anyUpstreamChange_eq_anyM rest]
end

theorem asks_hasUpstreamChange (p : Project) : p.hasUpstreamChange.Asks poll p.rootFirst := by
  rw [hasUpstreamChange_eq_anyM]
  exact .anyM poll p.rootFirst

/-- A trace goes through nodes in order: it is made of a part for each node, in which the node is
done, and looking at certain commands shows each node's mark once. -/
structure Visits (Done : Project → List Exchange → Prop) (look : Path × List String → Option γ)
    (mark : Project → γ) (nodes : List Project) (trace : List Exchange) : Prop where
  parts : ∃ parts, trace = parts.flatten ∧ List.Forall₂ Done nodes parts
  marks : seen look trace = nodes.map mark

theorem visits_of_carried {ω : Type} {c : Conduct Project ω} {mark : Project → γ}
    {nodes : List Project} {trace : List Exchange} (h : c.Carried nodes trace none)
    (hmark : ∀ node part, c.Done node part → seen look part = [mark node]) :
    Visits c.Done look mark nodes trace := by
  refine ⟨Conduct.carried_none_iff.mp h, ?_⟩
  unfold seen sent at hmark ⊢
  simp only [List.filterMap_filterMap] at hmark ⊢
  have hshows : ∀ node part, c.Done node part →
      part.filterMap (fun e => e.request.sends.bind look) = ((some ∘ mark) node).toList := hmark
  rw [h.filterMap_eq hshows, List.filterMap_eq_map]

/-- Polls of the nodes in order, each with one fetch. -/
abbrev VisitsByPoll (nodes : List Project) (trace : List Exchange) : Prop :=
  Visits (fun node part => Action.Runs node.poll.attempt part (.ok false)) fetch?
    (·.repository.directory) nodes trace

/-- Updates of the nodes in order, each with one checkout. -/
abbrev VisitsByUpdate (nodes : List Project) (trace : List Exchange) : Prop :=
  Visits (fun node part => ∃ a, Action.Runs node.update.attempt part (.ok a)) checkout?
    (fun node => (node.repository.directory, node.repository.branch)) nodes trace

/-- Recipes of the nodes in order, each with one look at a head. -/
abbrev VisitsByBuild (buildName : String) (nodes : List Project) (trace : List Exchange) : Prop :=
  Visits (fun node part => ∃ path, Action.Runs (node.buildOwn buildName).attempt part (.ok path))
    lookUp? (fun node => (node.repository.directory, node.spec.branch)) nodes trace

/-- A tree is polled, if nobody has anything new, from its root. -/
theorem visits_of_poll (p : Project) {trace : List Exchange}
    (h : Action.Runs p.hasUpstreamChange.attempt trace (.ok false)) :
    VisitsByPoll p.rootFirst trace :=
  visits_of_carried (p.asks_hasUpstreamChange.no trace h)
    fun node part hpart => node.repository.emits_hasUpstreamChange part false hpart

/-- It is updated dependencies first. -/
theorem visits_of_update (p : Project) {trace : List Exchange}
    (h : Action.Runs p.cloneSources.attempt trace (.ok ())) :
    VisitsByUpdate p.dependenciesFirst trace := by
  refine visits_of_carried (p.follows_update.ok trace () h).2 ?_
  rintro node part ⟨_, hpart⟩
  exact node.repository.emits_update part () hpart

/-- It is built in the same order. -/
theorem visits_of_build (p : Project) {buildName : String} {trace : List Exchange} {path : Path}
    (h : Action.Runs (p.build buildName).attempt trace (.ok path)) :
    VisitsByBuild buildName p.dependenciesFirst trace := by
  refine visits_of_carried ((p.follows_recipe buildName).ok trace path h).2 ?_
  rintro node part ⟨path, hpart⟩
  exact node.emits_buildOwn buildName part path hpart

/-! ## Commands for one project -/

variable {cfg : Config} {cpus : Nat} {goal : String} {spec : ProjectSpec}

/-- If a mark tells a project from the others, it is seen as often as nodes have its name. -/
theorem count_marks [BEq γ] [LawfulBEq γ] {mark : Project → γ} {m : γ} {nodes : List Project}
    (hmark : ∀ node ∈ nodes, mark node = m ↔ node.name = goal) :
    (nodes.map mark).count m = (nodes.map (·.name)).count goal := by
  unfold List.count
  rw [List.countP_map, List.countP_map]
  refine List.countP_congr fun node hnode => ?_
  simp only [Function.comp_apply, beq_iff_eq]
  exact hmark node hnode

/-! ## A small tree -/

/-- A project with a repository of its name. -/
def named (name : String) (dependencies : List Project) : Project :=
  { plainProject with name, repository := { plainProject.repository with name }, dependencies }

/-- An application on two libraries, both on the same base. -/
def application : Project :=
  named "app" [named "left" [named "base" []], named "right" [named "base" []]]

end Project

namespace Config

/-- No other project has its checkout where this one has. -/
def OwnsCheckout (cfg : Config) (goal : String) (spec : ProjectSpec) : Prop :=
  ∀ other otherSpec, cfg.projects.get? other = some otherSpec →
    (Project.repositoryOf cfg otherSpec).directory = (Project.repositoryOf cfg spec).directory →
    other = goal

variable {cfg : Config} {cpus : Nat} {goal : String} {spec : ProjectSpec}

/-- In such a checkout only nodes of the project are at work. -/
theorem OwnsCheckout.directory_eq_iff (h : cfg.OwnsCheckout goal spec)
    (hgoal : cfg.projects.get? goal = some spec) {node : Project} (hnode : node.Shows cfg cpus) :
    node.repository.directory = (Project.repositoryOf cfg spec).directory ↔ node.name = goal := by
  rw [hnode.repository]
  constructor
  · exact h node.name node.spec hnode.configured
  · intro hname
    have hspec := hnode.configured
    rw [hname, hgoal] at hspec
    rw [Option.some.inj hspec]

theorem OwnsCheckout.directory_branch_eq_iff (h : cfg.OwnsCheckout goal spec)
    (hgoal : cfg.projects.get? goal = some spec) {node : Project} (hnode : node.Shows cfg cpus) :
    (node.repository.directory, node.spec.branch) =
      ((Project.repositoryOf cfg spec).directory, spec.branch) ↔ node.name = goal := by
  rw [Prod.mk.injEq, h.directory_eq_iff hgoal hnode]
  refine and_iff_left_of_imp fun hname => ?_
  have hspec := hnode.configured
  rw [hname, hgoal] at hspec
  rw [Option.some.inj hspec]

/-- In an accepted configuration a poll that finds nothing new, an update and a build go through the
same nodes of the tree of a project, the poll with the root first and the others with the
dependencies first.  Each project is met as often as there are walks to it; in a checkout of its own
that many fetches, that many checkouts and that many looks at the head are seen. -/
theorem visits_count_walks {s : Sections} {cfg : Config} (h : s.validate = .ok cfg) (cpus : Nat)
    {name : String} (hname : name ∈ cfg.projects.names) :
    ∃ tree, Project.resolve cfg cpus name = .ok tree ∧
      (∀ trace, Action.Runs tree.hasUpstreamChange.attempt trace (.ok false) →
        Project.VisitsByPoll tree.rootFirst trace) ∧
      (∀ trace, Action.Runs tree.cloneSources.attempt trace (.ok ()) →
        Project.VisitsByUpdate tree.dependenciesFirst trace) ∧
      (∀ buildName trace path, Action.Runs (tree.build buildName).attempt trace (.ok path) →
        Project.VisitsByBuild buildName tree.dependenciesFirst trace) ∧
      (∀ goal, (tree.rootFirst.map (·.name)).count goal =
          {w | cfg.projects.Walk goal name w}.encard ∧
        (tree.dependenciesFirst.map (·.name)).count goal =
          {w | cfg.projects.Walk goal name w}.encard) ∧
      ∀ goal spec, cfg.projects.get? goal = some spec → cfg.OwnsCheckout goal spec →
        ∀ polling updating building buildName path,
          Action.Runs tree.hasUpstreamChange.attempt polling (.ok false) →
          Action.Runs tree.cloneSources.attempt updating (.ok ()) →
          Action.Runs (tree.build buildName).attempt building (.ok path) →
          (seen fetch? polling).count (Project.repositoryOf cfg spec).directory =
              {w | cfg.projects.Walk goal name w}.encard ∧
            (seen checkout? updating).count
                ((Project.repositoryOf cfg spec).directory, spec.branch) =
              {w | cfg.projects.Walk goal name w}.encard ∧
            (seen lookUp? building).count ((Project.repositoryOf cfg spec).directory, spec.branch) =
              {w | cfg.projects.Walk goal name w}.encard := by
  have hresolvable := Sections.resolvable_of_validate h
  obtain ⟨tree, htree⟩ := Project.exists_resolve cpus hresolvable hname
  obtain rfl := Project.name_of_resolve htree
  have hperm := tree.rootFirst_perm_dependenciesFirst
  have hrootFirst goal : ((tree.rootFirst.map (·.name)).count goal : ℕ∞) =
      {w | cfg.projects.Walk goal tree.name w}.encard :=
    (Project.encard_walk_eq_count hresolvable tree htree).symm
  have hdependenciesFirst goal : ((tree.dependenciesFirst.map (·.name)).count goal : ℕ∞) =
      {w | cfg.projects.Walk goal tree.name w}.encard := by
    rw [← (hperm.map _).count_eq goal]
    exact hrootFirst goal
  have hshows : ∀ node ∈ tree.rootFirst, node.Shows cfg cpus := by
    intro node hnode
    have hcontains := Project.contains_of_mem_rootFirst tree hnode
    have hresolved := Project.resolve_of_contains hresolvable htree hcontains
    exact ((Project.resolve_eq_ok_iff hresolvable).mp hresolved).2.1
  refine ⟨tree, htree, fun _ => tree.visits_of_poll, fun _ => tree.visits_of_update,
    fun _ _ _ => tree.visits_of_build, fun goal => ⟨hrootFirst goal, hdependenciesFirst goal⟩, ?_⟩
  intro goal spec hgoal howns polling updating building buildName path hpoll hupdate hbuild
  rw [(tree.visits_of_poll hpoll).marks, (tree.visits_of_update hupdate).marks,
    (tree.visits_of_build hbuild).marks]
  refine ⟨?_, ?_, ?_⟩
  · rw [Project.count_marks fun node hnode => howns.directory_eq_iff hgoal (hshows node hnode)]
    exact hrootFirst goal
  · rw [Project.count_marks fun node hnode => ?_]
    · exact hdependenciesFirst goal
    · have hnode := hshows node (hperm.mem_iff.mpr hnode)
      have hbranch : node.repository.branch = node.spec.branch := by rw [hnode.repository]; rfl
      rw [hbranch]
      exact howns.directory_branch_eq_iff hgoal hnode
  · rw [Project.count_marks fun node hnode =>
      howns.directory_branch_eq_iff hgoal (hshows node (hperm.mem_iff.mpr hnode))]
    exact hdependenciesFirst goal

/-- A machine on which everything succeeds.  Every reference names the same commit, so that there is
nothing new. -/
def steadyMachine (q : Request) (_ : Unit) : q.Reply × Unit :=
  match q with
  | .run _ _ => (.ok (.ofLines ["* master"]), ())
  | .readFile _ => (.error .notFound, ())
  | .isDirectory _ => (true, ())
  | .isExecutable _ => (true, ())
  | .createDirectory _ => (.ok (), ())
  | .writeFile _ _ => (.ok (), ())
  | .spawn _ _ => (.ok 1, ())
  | .status _ => (.alive, ())
  | .signal _ _ => (.ok (), ())
  | .kill _ => (.ok (), ())
  | .sleep _ => ((), ())
  | .pause _ => (.elapsed, ())
  | .clock => (.ofSeconds 0, ())

/-- On such a machine a task has the run that the machine gives it. -/
theorem runs_steady {t : Task α} {a : α}
    (h : (Action.runWith steadyMachine t.attempt ()).1 = .ok a) :
    Action.Runs t.attempt (Action.traceWith steadyMachine t.attempt ()) (.ok a) :=
  h ▸ Action.runs_traceWith steadyMachine t.attempt ()

/-- The base of the diamond. -/
def diamondBase : ProjectSpec := { repository := "base", buildSystem := .make, jobs := some 2 }

theorem ownsCheckout_diamond : Sections.diamondConfig.OwnsCheckout "base" diamondBase := by
  have hentries : ∀ entry ∈ Sections.diamondConfig.projects.entries,
      (Project.repositoryOf Sections.diamondConfig entry.2).directory =
        (Project.repositoryOf Sections.diamondConfig diamondBase).directory →
      entry.1 = "base" := by decide
  intro other spec hspec hdirectory
  exact hentries (other, spec) (ProjectTable.mem_entries_of_get? hspec) hdirectory

/-- From the application there are three ways to the base, so its checkout is fetched, checked out
and looked at three times. -/
theorem visits_count_walks_diamond :
    Sections.diamondSections.validate = .ok Sections.diamondConfig ∧
    "app" ∈ Sections.diamondConfig.projects.names ∧
    {w | Sections.diamondConfig.projects.Walk "base" "app" w}.encard = 3 ∧
    ∃ tree polling updating building,
      Project.resolve Sections.diamondConfig 4 "app" = .ok tree ∧
      Action.Runs tree.hasUpstreamChange.attempt polling (.ok false) ∧
      Action.Runs tree.cloneSources.attempt updating (.ok ()) ∧
      Action.Runs (tree.build "build").attempt building (.ok ⟨"./app/build"⟩) ∧
      ((seen fetch? polling).count ⟨"./base"⟩ : ℕ∞) = 3 ∧
      ((seen checkout? updating).count (⟨"./base"⟩, "master") : ℕ∞) = 3 ∧
      ((seen lookUp? building).count (⟨"./base"⟩, "master") : ℕ∞) = 3 := by
  have hname : "app" ∈ Sections.diamondConfig.projects.names := by decide
  obtain ⟨tree, htree, -, -, -, hwalks, hcounts⟩ :=
    visits_count_walks Sections.validate_diamond 4 hname
  have htold {β : Type} {f : Project → β} {b : β}
      (h : (Project.resolve Sections.diamondConfig 4 "app").map f = .ok b) : f tree = b := by
    rw [htree] at h
    exact Except.ok.inj h
  have hthree : (tree.rootFirst.map (·.name)).count "base" = 3 :=
    htold (f := fun t => (t.rootFirst.map (·.name)).count "base") rfl
  have hpoll := runs_steady
    (htold (f := fun t => (Action.runWith steadyMachine t.hasUpstreamChange.attempt ()).1) rfl)
  have hupdate := runs_steady
    (htold (f := fun t => (Action.runWith steadyMachine t.cloneSources.attempt ()).1) rfl)
  have hbuild := runs_steady
    (htold (f := fun t => (Action.runWith steadyMachine (t.build "build").attempt ()).1) rfl)
  have hwalk : {w | Sections.diamondConfig.projects.Walk "base" "app" w}.encard = 3 := by
    rw [← (hwalks "base").1, hthree]
    rfl
  have hcount := hcounts "base" diamondBase rfl ownsCheckout_diamond _ _ _ "build" _ hpoll hupdate
    hbuild
  rw [hwalk] at hcount
  exact ⟨Sections.validate_diamond, hname, hwalk, tree, _, _, _, htree, hpoll, hupdate, hbuild,
    hcount⟩

end Config

end DaemonKeeper
