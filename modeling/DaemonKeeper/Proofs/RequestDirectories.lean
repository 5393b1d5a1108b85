import DaemonKeeper.Proofs.TrackedBranches
set_option autoImplicit false

/-!
# Where requests do their work

A recipe works in the sources, which are there before it, and in directories that have the name of
the build.  Updates and polls work in the sources only.  What is asked for about processes works
nowhere, and starts nothing but what the process was given.
-/

namespace DaemonKeeper

/-! ## Where a request does its work -/

/-- The directory in which a command is run, or that is created. -/
def Request.workplace? : Request → Option Path
  | .run directory _ => some directory
  | .createDirectory directory => some directory
  | _ => none

/-- The request is not about the time, starts nothing, and works in one of some places or nowhere. -/
structure Request.StaysIn (places : Path → Prop) (q : Request) : Prop where
  untimed : q ≠ .clock
  noStart : ∀ executable arguments, q ≠ .spawn executable arguments
  inside : ∀ directory, q.workplace? = some directory → places directory

namespace Request.StaysIn

variable {places : Path → Prop} {directory : Path}

theorem run {command : Command} (h : places directory) :
    StaysIn places (.run directory command) where
  untimed := nofun
  noStart := nofun
  inside _ hplace := Option.some.inj hplace ▸ h

theorem createDirectory (h : places directory) : StaysIn places (.createDirectory directory) where
  untimed := nofun
  noStart := nofun
  inside _ hplace := Option.some.inj hplace ▸ h

theorem writeFile {path : Path} {text : String} : StaysIn places (.writeFile path text) :=
  ⟨nofun, nofun, nofun⟩

theorem isDirectory {path : Path} : StaysIn places (.isDirectory path) := ⟨nofun, nofun, nofun⟩

end Request.StaysIn

/-- The directory of a step of a recipe. -/
def BuildStep.place : BuildStep → Path
  | .command directory _ => directory
  | .lookUp directory _ => directory
  | .prepare directory => directory

/-- A step works in its directory. -/
theorem BuildStep.Asks.staysIn {s : BuildStep} {q : Request} {places : Path → Prop}
    (h : s.Asks q) (hplace : places s.place) : q.StaysIn places := by
  cases h with
  | command => exact .run hplace
  | lookUp => exact .run hplace
  | create => exact .createDirectory hplace
  | mark => exact .writeFile

/-- A vendored library is built in a directory with the name, after the code of others. -/
theorem Build.Vendored.place_of_mem_plan (v : Build.Vendored) (buildName : String) :
    ∀ s ∈ v.plan buildName,
      s.place = v.thirdParty.directory ∨ s.place = v.directory.join buildName := by
  simp [plan, BuildStep.place, thirdParty, thirdPartyDir]

namespace Project

/-- The directories of a project that are there before it is built: what its repository is cloned
into, the repository, and the code of others in its vendored libraries. -/
def ownSourceDirectories (p : Project) : List Path :=
  p.repository.parent :: p.repository.directory ::
    p.spec.vendored.map fun relative => (p.vendoredLibrary relative).thirdParty.directory

/-- Those of a whole tree. -/
def sourceDirectories (p : Project) : List Path := p.rootFirst.flatMap ownSourceDirectories

/-- The directories in which something is done for a project in a cycle: those of the sources, and
those that have the name of the cycle. -/
def Workplace (sources : List Path) (buildName : String) (directory : Path) : Prop :=
  directory ∈ sources ∨ ∃ parent : Path, directory = parent.join buildName

variable {p : Project} {buildName : String} {sources : List Path} {trace : List Exchange}

/-- A project itself is built in its output directory. -/
theorem place_of_mem_selfPlan (p : Project) (buildName : String) :
    ∀ s ∈ p.selfPlan buildName, s.place = p.outputDir buildName := by
  unfold selfPlan outputDir
  cases p.spec.buildSystem <;> cases p.spec.install <;> simp [BuildStep.place]

/-- The output directory is that of the repository, or one with the name. -/
theorem outputDir_eq_or (p : Project) (buildName : String) :
    p.outputDir buildName = p.repository.directory ∨
      p.outputDir buildName = p.repository.directory.join buildName := by
  unfold outputDir
  cases p.spec.buildSystem with
  | cmake => exact .inr rfl
  | make => exact .inl rfl

theorem directory_mem_sourceDirectories (p : Project) :
    p.repository.directory ∈ p.sourceDirectories := by
  refine List.mem_flatMap.mpr ⟨p, ?_, by simp [ownSourceDirectories]⟩
  cases p with
  | mk =>
    unfold rootFirst
    exact List.mem_cons_self

/-- A project without its dependencies is built in its repository, in its output directory, and in
two directories of each vendored library. -/
theorem place_of_mem_ownPlan (p : Project) (buildName : String) :
    ∀ s ∈ p.ownPlan buildName,
      s.place = p.repository.directory ∨ s.place = p.outputDir buildName ∨
        ∃ relative ∈ p.spec.vendored,
          s.place = (p.vendoredLibrary relative).thirdParty.directory ∨
            s.place = (p.vendoredLibrary relative).directory.join buildName := by
  intro s hs
  rcases List.mem_append.mp hs with hs | hself
  · rcases List.mem_cons.mp hs with rfl | hvendored
    · exact .inl rfl
    obtain ⟨relative, hrelative, hs⟩ := List.mem_flatMap.mp hvendored
    have hplace := Build.Vendored.place_of_mem_plan _ buildName s hs
    exact .inr (.inr ⟨relative, hrelative, hplace⟩)
  · exact .inr (.inl (p.place_of_mem_selfPlan buildName s hself))

/-- The build of a project works in its sources and in directories with the name. -/
theorem workplace_of_mem_ownPlan (hsources : p.ownSourceDirectories ⊆ sources) :
    ∀ s ∈ p.ownPlan buildName, Workplace sources buildName s.place := by
  have hrepository : p.repository.directory ∈ sources := hsources (by simp [ownSourceDirectories])
  intro s hs
  rcases p.place_of_mem_ownPlan buildName s hs with
    hplace | hplace | ⟨relative, hrelative, hplace | hplace⟩
  · exact .inl (hplace ▸ hrepository)
  · rcases p.outputDir_eq_or buildName with houtput | houtput
    · exact .inl (hplace ▸ houtput ▸ hrepository)
    · exact .inr ⟨_, hplace.trans houtput⟩
  · refine .inl (hplace ▸ hsources ?_)
    exact List.mem_cons_of_mem _ (List.mem_cons_of_mem _ (List.mem_map_of_mem hrelative))
  · exact .inr ⟨_, hplace⟩

/-- The recipe of a tree works where the steps of its projects do, however it ends. -/
theorem staysIn_of_place {places : Path → Prop}
    (hplace : ∀ node ∈ p.dependenciesFirst, ∀ s ∈ node.ownPlan buildName, places s.place)
    {outcome : Except Fault Path} (h : Action.Runs (p.build buildName).attempt trace outcome) :
    ∀ e ∈ trace, e.request.StaysIn places := by
  refine (p.follows_recipe buildName).forall_exchange (fun node hnode part result hpart e he => ?_) h
  obtain ⟨s, hs, hasks⟩ := (node.follows_buildOwn buildName).asks hpart e he
  exact hasks.staysIn (hplace node hnode s hs)

/-- The sources of a node of a tree are sources of the tree. -/
theorem ownSourceDirectories_subset {node : Project} (hnode : node ∈ p.dependenciesFirst)
    (hsources : p.sourceDirectories ⊆ sources) : node.ownSourceDirectories ⊆ sources := by
  intro directory hdirectory
  have hmem : node ∈ p.rootFirst := p.rootFirst_perm_dependenciesFirst.mem_iff.mpr hnode
  exact hsources (List.mem_flatMap.mpr ⟨node, hmem, hdirectory⟩)

/-- The recipe of a tree works in the sources of the tree and in directories with the name. -/
theorem staysIn_of_runs_build (hsources : p.sourceDirectories ⊆ sources)
    {outcome : Except Fault Path} (h : Action.Runs (p.build buildName).attempt trace outcome) :
    ∀ e ∈ trace, e.request.StaysIn (Workplace sources buildName) :=
  staysIn_of_place (fun _ hnode =>
    workplace_of_mem_ownPlan (ownSourceDirectories_subset hnode hsources)) h

/-- An update works in the sources. -/
theorem staysIn_of_runs_cloneSources (hsources : p.sourceDirectories ⊆ sources)
    {outcome : Except Fault Unit} (h : Action.Runs p.cloneSources.attempt trace outcome) :
    ∀ e ∈ trace, e.request.StaysIn (· ∈ sources) := by
  refine p.follows_update.forall_exchange (fun node hnode part result hpart => ?_) h
  have hsub := ownSourceDirectories_subset hnode hsources
  have hparent : node.repository.parent ∈ sources := hsub (by simp [ownSourceDirectories])
  have hrepository : node.repository.directory ∈ sources :=
    hsub (by simp [ownSourceDirectories])
  have honly : Task.Only (Request.StaysIn (· ∈ sources)) node.update := by
    refine .bind (Git.Repository.only_clone.mono ?_) fun _ =>
      Git.Repository.only_gitEffect (.run hrepository)
    rintro _ ⟨⟩
    · exact .isDirectory
    · exact .run hrepository
    · exact .run hrepository
    · exact .createDirectory hparent
    · exact .run hparent
    · exact .run hrepository
    · exact .run hrepository
  exact Action.Only.of_runs honly hpart

/-- So does a poll. -/
theorem staysIn_of_runs_hasUpstreamChange (hsources : p.sourceDirectories ⊆ sources)
    {outcome : Except Fault Bool}
    (h : Action.Runs p.hasUpstreamChange.attempt trace outcome) :
    ∀ e ∈ trace, e.request.StaysIn (· ∈ sources) := by
  refine p.asks_hasUpstreamChange.forall_exchange (fun node hnode part result hpart => ?_) h
  have hrepository : node.repository.directory ∈ sources :=
    hsources (List.mem_flatMap.mpr ⟨node, hnode, by simp [ownSourceDirectories]⟩)
  have honly : node.repository.hasUpstreamChange.Only (Request.StaysIn (· ∈ sources)) := by
    apply Git.Repository.only_hasUpstreamChange.mono
    rintro _ ⟨⟩ <;> exact .run hrepository
  exact Action.Only.of_runs honly hpart

end Project

/-! ## What is asked for about processes -/

/-- A request about processes by which only certain executables are started. -/
inductive ProcessRequest (starts : Path → Prop) : Request → Prop where
  | status (pid : Nat) : ProcessRequest starts (.status pid)
  | signal (target : Int) (signal : Signal) : ProcessRequest starts (.signal target signal)
  | kill (pid : Nat) : ProcessRequest starts (.kill pid)
  | sleep (duration : Duration) : ProcessRequest starts (.sleep duration)
  | isExecutable (path : Path) : ProcessRequest starts (.isExecutable path)
  | spawn {executable : Path} (arguments : List String) :
    starts executable → ProcessRequest starts (.spawn executable arguments)

section

variable {starts : Path → Prop}

namespace ManagedProcess

variable (p : ManagedProcess)

theorem only_isRunning : Action.Only (ProcessRequest starts) p.isRunning := by
  unfold isRunning
  cases p.child with
  | none => trivial
  | some pid =>
    refine Action.Only.bind (.request (.status pid)) fun reply => ?_
    cases reply <;> trivial

theorem only_pid : Action.Only (ProcessRequest starts) p.pid := by
  refine p.only_isRunning.bind fun ⟨running, p⟩ => ?_
  dsimp only
  split <;> trivial

theorem only_start {executable : Path} (h : starts executable) (arguments : List String) :
    Action.Only (ProcessRequest starts) (p.start executable arguments) := by
  refine Action.Only.bind (.request (.isExecutable executable)) fun found => ?_
  cases found with
  | false => trivial
  | true =>
    refine p.only_isRunning.bind fun ⟨running, p⟩ => ?_
    cases running with
    | true => exact p.only_pid.bind fun _ => trivial
    | false =>
      refine Action.Only.bind (.request (.spawn arguments h)) fun reply => ?_
      cases reply <;> trivial

theorem only_awaitExit (remaining checks : Nat) :
    Action.Only (ProcessRequest starts) (awaitExit remaining checks p) := by
  induction remaining generalizing checks p with
  | zero => trivial
  | succ remaining ih =>
    refine p.only_isRunning.bind fun ⟨running, p⟩ => ?_
    cases running with
    | false => trivial
    | true => exact Action.Only.bind (.request (.sleep _)) fun _ => ih p (checks + 1)

theorem only_stop : Action.Only (ProcessRequest starts) p.stop := by
  refine p.only_isRunning.bind fun ⟨running, p⟩ => ?_
  cases running with
  | false => trivial
  | true =>
    refine p.only_pid.bind fun ⟨pid, p⟩ => ?_
    refine Action.Only.bind (.request (.signal pid .terminate)) fun reply => ?_
    cases reply with
    | error cause => trivial
    | ok =>
      refine (p.only_awaitExit _ 0).bind fun ⟨checks, p⟩ => ?_
      refine p.only_isRunning.bind fun ⟨still, p⟩ => ?_
      cases still <;> trivial

theorem only_kill : Action.Only (ProcessRequest starts) p.kill := by
  unfold kill
  cases p.child with
  | none => trivial
  | some pid =>
    refine Action.Only.bind (.request (.kill pid)) fun reply => ?_
    cases reply <;> trivial

end ManagedProcess

namespace Daemon

variable (d : Daemon)

theorem only_pid : Action.Only (ProcessRequest starts) d.pid :=
  d.process.only_pid.bind fun _ => trivial

/-- A daemon is started from the binary it knows. -/
theorem only_ensureStarted (h : ∀ path, d.executable = some path → starts path) :
    Action.Only (ProcessRequest starts) d.ensureStarted := by
  unfold ensureStarted isRunning
  rw [Action.bind_assoc]
  refine d.process.only_isRunning.bind fun ⟨running, p⟩ => ?_
  cases running with
  | true => trivial
  | false =>
    rw [pure_bind]
    dsimp only
    rw [if_neg Bool.false_ne_true]
    split
    · trivial
    · rename_i executable hexecutable
      exact (p.only_start (h executable hexecutable) d.arguments).bind fun _ => trivial

theorem only_stop : Action.Only (ProcessRequest starts) d.stop :=
  d.process.only_stop.bind fun _ => trivial

theorem only_shutdown : Action.Only (ProcessRequest starts) d.shutdown := by
  refine d.process.only_stop.bind fun ⟨outcome, p⟩ => ?_
  dsimp only
  split
  · exact p.only_kill.bind fun _ => trivial
  · trivial

end Daemon

namespace Supervisor

theorem only_startDaemon {d : Daemon} (h : ∀ path, d.executable = some path → starts path) :
    Action.Only (ProcessRequest starts) (startDaemon d) := by
  refine (d.only_ensureStarted h).bind fun ⟨outcome, d⟩ => ?_
  rcases outcome with fault | started
  · trivial
  cases started with
  | false => trivial
  | true => exact d.only_pid.bind fun _ => trivial

theorem only_reportDaemon (d : Daemon) : Action.Only (ProcessRequest starts) (reportDaemon d) :=
  d.only_pid.bind fun _ => trivial

theorem only_stopStep (flags : List Bool) (i : Nat) (d : Daemon) :
    Action.Only (ProcessRequest starts) (stopStep flags i d) := by
  unfold stopStep
  split
  · exact d.only_stop
  · trivial

end Supervisor

end

end DaemonKeeper
