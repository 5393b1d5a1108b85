import DaemonKeeper.Proofs.FailedPasses
import DaemonKeeper.Proofs.PathComponents
import DaemonKeeper.Proofs.RequestDirectories
set_option autoImplicit false

/-!
# What keeps builds inside the workspace (SPEC §4.1)

The directories of a recipe are joined from the workspace and what the configuration names.  They
stay inside as long as these names are relative.  Validation sees to that for the executables of
daemons only: a repository or a vendored library may be absolute, and then the project is built, and
perhaps installed, wherever that leads.
-/

namespace DaemonKeeper

/-- A name that can be joined to a path without leaving it: it is relative, or begins with the path
itself. -/
def Path.Admits (left : Path) (right : String) : Prop :=
  (Path.mk right).isAbsolute = false ∨ (Path.mk right).BeginsWith left

instance (left : Path) (right : String) : Decidable (left.Admits right) :=
  inferInstanceAs (Decidable (_ ∨ _))

namespace Project

variable {p : Project} {workspace : Path} {buildName : String}

/-- A project stays inside a workspace: its repository begins with the workspace, and its vendored
libraries with the code of others in them and all outputs begin with the repository. -/
structure Confined (workspace : Path) (buildName : String) (p : Project) : Prop where
  repository : p.repository.directory.BeginsWith workspace
  vendored : ∀ relative ∈ p.spec.vendored,
    (p.vendoredLibrary relative).directory.BeginsWith p.repository.directory
  thirdParty : ∀ relative ∈ p.spec.vendored,
    (p.vendoredLibrary relative).thirdParty.directory.BeginsWith p.repository.directory
  vendoredOutput : ∀ relative ∈ p.spec.vendored,
    ((p.vendoredLibrary relative).library buildName).buildDir.BeginsWith p.repository.directory
  output : (p.outputDir buildName).BeginsWith p.repository.directory

/-- What the configuration names decides it. -/
theorem confined_iff (hname : (Path.mk buildName).isAbsolute = false) :
    p.Confined workspace buildName ↔
      p.repository.directory.BeginsWith workspace ∧
        ∀ relative ∈ p.spec.vendored, p.repository.directory.Admits relative := by
  constructor
  · intro h
    refine ⟨h.repository, fun relative hrelative => ?_⟩
    exact Path.join_beginsWith_iff.mp (h.vendored relative hrelative)
  · rintro ⟨hrepository, hvendored⟩
    have hlibrary : ∀ relative ∈ p.spec.vendored,
        (p.vendoredLibrary relative).directory.BeginsWith p.repository.directory :=
      fun relative hrelative => Path.join_beginsWith_iff.mpr (hvendored relative hrelative)
    exact {
      repository := hrepository
      vendored := hlibrary
      thirdParty := fun relative hrelative =>
        (Path.join_beginsWith _ rfl).trans (hlibrary relative hrelative)
      vendoredOutput := fun relative hrelative =>
        (Path.join_beginsWith _ hname).trans (hlibrary relative hrelative)
      output := by
        rcases p.outputDir_eq_or buildName with houtput | houtput
        · rw [houtput]
          exact .refl _
        · rw [houtput]
          exact Path.join_beginsWith _ hname }

/-- The directories of its recipe are in the workspace then. -/
theorem Confined.place_beginsWith (h : p.Confined workspace buildName) :
    ∀ s ∈ p.ownPlan buildName, s.place.BeginsWith workspace := by
  intro s hs
  rcases p.place_of_mem_ownPlan buildName s hs with
    hplace | hplace | ⟨relative, hrelative, hplace | hplace⟩
  · rw [hplace]
    exact h.repository
  · rw [hplace]
    exact h.output.trans h.repository
  · rw [hplace]
    exact (h.thirdParty relative hrelative).trans h.repository
  · rw [hplace]
    exact (h.vendoredOutput relative hrelative).trans h.repository

end Project

namespace Config

variable {s : Sections} {cfg : Config} {name buildName : String}

/-- A daemon of an accepted configuration names its executable relative to the output. -/
theorem isAbsolute_of_validate (h : s.validate = .ok cfg) {entry : String × DaemonSpec}
    (hentry : entry ∈ cfg.daemons.entries) : entry.2.executable.isAbsolute = false :=
  Bool.eq_false_iff.mpr
    (Sections.kept_of_validate h hentry _ (List.mem_cons_of_mem _ List.mem_cons_self))

/-- Only these names decide, for validation does not look at them.  In an accepted configuration a
project is confined to the workspace if and only if the workspace admits its repository and the
repository its vendored libraries.  If all projects of a tree are, it is built and installed nowhere
else.  What a daemon verifies and then starts is always in the output directory of its project. -/
theorem confined_iff_admitted (h : s.validate = .ok cfg) (cpus : Nat)
    (hname : name ∈ cfg.projects.names) (hrelative : (Path.mk buildName).isAbsolute = false) :
    ∃ tree, Project.resolve cfg cpus name = .ok tree ∧
      (∀ node ∈ tree.rootFirst, node.Confined cfg.settings.workspace buildName ↔
        cfg.settings.workspace.Admits node.spec.repository ∧
          ∀ relative ∈ node.spec.vendored, node.repository.directory.Admits relative) ∧
      ((∀ node ∈ tree.rootFirst, node.Confined cfg.settings.workspace buildName) →
        ∀ trace outcome, Action.Runs (tree.build buildName).attempt trace outcome →
          ∀ e ∈ trace, ∀ directory, e.request.workplace? = some directory →
            directory.BeginsWith cfg.settings.workspace) ∧
      ∀ entry ∈ cfg.daemons.entries, ∀ d : Daemon, d.project = tree → d.binary = entry.2.executable →
        ∀ trace d', Action.Runs (d.build buildName) trace (.ok (), d') →
        ∃ path, d'.executable = some path ∧ path.BeginsWith (tree.outputDir buildName) ∧
          ⟨.isExecutable path, true⟩ ∈ trace ∧
          ∀ p, Action.Only (ProcessRequest (· = path)) (d'.withProcess p).ensureStarted := by
  have hresolvable := Sections.resolvable_of_validate h
  obtain ⟨tree, htree⟩ := Project.exists_resolve cpus hresolvable hname
  refine ⟨tree, htree, fun node hnode => ?_, fun hconfined trace outcome hrun e he => ?_, ?_⟩
  · have hshows := (Project.unfolding_of_resolve hresolvable htree).nodes node
      (Project.contains_of_mem_rootFirst tree hnode)
    have hdirectory :
        node.repository.directory = cfg.settings.workspace.join node.spec.repository := by
      rw [hshows.repository]
      rfl
    rw [Project.confined_iff hrelative, hdirectory, Path.join_beginsWith_iff]
    exact .rfl
  · refine (Project.staysIn_of_place (fun node hnode => ?_) hrun e he).inside
    have hmem : node ∈ tree.rootFirst := tree.rootFirst_perm_dependenciesFirst.mem_iff.mpr hnode
    exact (hconfined node hmem).place_beginsWith
  · rintro entry hentry d rfl hbinary trace d' hrun
    have hinside : d.binary.isAbsolute = false := hbinary ▸ isAbsolute_of_validate h hentry
    obtain ⟨path, hpath, rfl⟩ := Daemon.runs_buildBinary_of_build hrun
    obtain ⟨recipe, rfl, -, rfl⟩ := Daemon.built_of_runs_buildBinary hpath
    refine ⟨_, rfl, Path.join_beginsWith _ hinside, ?_, fun p => ?_⟩
    · exact List.mem_append_right _ List.mem_cons_self
    · exact Daemon.only_ensureStarted _ fun path hpath => (Option.some.inj hpath).symm

/-! ## A library and its project, placed somewhere -/

/-- A project that is compiled and installed in its checkout, after a library in it. -/
def placedSpec (repository library : String) : ProjectSpec :=
  { repository, buildSystem := .make, jobs := some 1, install := true, vendored := [library] }

/-- One daemon of that project, with all settings as they are by default. -/
def placedSections (repository library : String) : Sections :=
  { settings := { organization := "acme" }
    projects := ⟨[("svc", placedSpec repository library)]⟩
    daemons := ⟨[("d", { project := "svc", executable := ⟨"bin/svcd"⟩ })]⟩ }

/-- What is configured by it. -/
def placedConfig (repository library : String) : Config :=
  { placedSections repository library with
    pollInterval := .ofSeconds 60
    stopPolicy := .default }

/-- The project as it is resolved. -/
def placed (repository library : String) : Project :=
  { name := "svc"
    spec := placedSpec repository library
    repository := Project.repositoryOf (placedConfig repository library)
      (placedSpec repository library)
    dependencies := []
    privilegePrefix := ["sudo"]
    jobs := 1 }

/-- The daemon before its first build. -/
def placedDaemon (repository library : String) : Daemon :=
  .ofSpec "d" { project := "svc", executable := ⟨"bin/svcd"⟩ } (placed repository library) .default

/-- The sections are valid wherever the repository and the library are. -/
theorem validate_placed {repository : String} (h : Text.isBlankText repository = false)
    (library : String) :
    (placedSections repository library).validate = .ok (placedConfig repository library) := by
  have hproject : Sections.checkProject (placedSections repository library).projects
      ("svc", placedSpec repository library) = .ok () := by
    unfold Sections.checkProject placedSpec
    rw [h]
    rfl
  have hprojects : (placedSections repository library).projects.entries.forM
      (Sections.checkProject (placedSections repository library).projects) = .ok () :=
    bind_eq_ok_iff.mpr ⟨(), hproject, rfl⟩
  have hnone : (placedSections repository library).projects.graph.cycle? = none :=
    ProjectTable.Ordered.cycle?_eq_none (List.pairwise_singleton _ _) (fun _ => 0)
      (List.forall_mem_singleton.mpr fun _ hafter => nomatch hafter)
  have hcycle : Sections.checkCycle (placedSections repository library).projects = .ok () := by
    unfold Sections.checkCycle
    rw [hnone]
  have horganization :
      Sections.demand (!Text.isBlankText "acme") .blankOrganization = .ok () := by rfl
  have hpoll : Sections.interval .pollInterval "60s" = .ok (.ofSeconds 60) := rfl
  have hstop : Sections.interval .stopPollInterval "1s" = .ok (.ofSeconds 1) := rfl
  exact Sections.validate_eq_ok_iff.mpr
    ⟨⟨rfl, horganization, rfl⟩, ⟨hprojects, rfl, hcycle⟩, _, _, hpoll, hstop, rfl⟩

/-- With relative names all work is done in the workspace, and the binary is in the output. -/
theorem confined_iff_admitted_relative :
    (placedSections "svc" "ha").validate = .ok (placedConfig "svc" "ha") ∧
    "svc" ∈ (placedConfig "svc" "ha").projects.names ∧ (Path.mk "build").isAbsolute = false ∧
    Project.resolve (placedConfig "svc" "ha") 1 "svc" = .ok (placed "svc" "ha") ∧
    (placed "svc" "ha").Confined ⟨"."⟩ "build" ∧
    ∃ trace path own d',
      Action.Runs ((placed "svc" "ha").build "build").attempt trace (.ok path) ∧
      (∀ e ∈ trace, ∀ directory, e.request.workplace? = some directory →
        directory.BeginsWith ⟨"."⟩) ∧
      Action.Runs ((placedDaemon "svc" "ha").build "build") own (.ok (), d') ∧
      ∃ binary, d'.executable = some binary ∧
        binary.BeginsWith ((placed "svc" "ha").outputDir "build") := by
  have hvalid : (placedSections "svc" "ha").validate = .ok (placedConfig "svc" "ha") :=
    validate_placed rfl "ha"
  have hname : "svc" ∈ (placedConfig "svc" "ha").projects.names := by decide
  have hbuild : (Path.mk "build").isAbsolute = false := rfl
  have hresolve : Project.resolve (placedConfig "svc" "ha") 1 "svc" = .ok (placed "svc" "ha") := rfl
  obtain ⟨tree, htree, hconfined, hworkplace, hdaemon⟩ :=
    confined_iff_admitted hvalid 1 hname hbuild
  obtain rfl := Except.ok.inj (htree.symm.trans hresolve)
  have hall : ∀ node ∈ (placed "svc" "ha").rootFirst, node.Confined ⟨"."⟩ "build" := by
    intro node hnode
    obtain rfl := List.mem_singleton.mp hnode
    exact (hconfined _ hnode).mpr (by decide)
  have hruns := runs_steady (t := (placed "svc" "ha").build "build") rfl
  have hown := Action.runs_traceWith steadyMachine ((placedDaemon "svc" "ha").build "build") ()
  obtain ⟨binary, hbinary, hbegins, -⟩ := hdaemon _ List.mem_cons_self _ rfl rfl _ _ hown
  exact ⟨hvalid, hname, hbuild, hresolve, hall _ List.mem_cons_self, _, _, _, _, hruns,
    hworkplace hall _ _ hruns, hown, binary, hbinary, hbegins⟩

/-- With absolute names the sections are just as valid.  The repository is then outside the
workspace and the library outside the repository, and a build installs in both. -/
theorem installs_outside_workspace :
    (placedSections "/srv/svc" "/opt/ha").validate = .ok (placedConfig "/srv/svc" "/opt/ha") ∧
    Project.resolve (placedConfig "/srv/svc" "/opt/ha") 1 "svc" =
      .ok (placed "/srv/svc" "/opt/ha") ∧
    (Path.mk "build").isAbsolute = false ∧
    ¬ (placed "/srv/svc" "/opt/ha").repository.directory.BeginsWith ⟨"."⟩ ∧
    ¬ ((placed "/srv/svc" "/opt/ha").vendoredLibrary "/opt/ha").directory.BeginsWith
      (placed "/srv/svc" "/opt/ha").repository.directory ∧
    ∃ trace path,
      Action.Runs ((placed "/srv/svc" "/opt/ha").build "build").attempt trace (.ok path) ∧
      List.Sublist
        [.run ⟨"/opt/ha/build"⟩ ⟨"sudo", ["make", "install"]⟩,
          .run ⟨"/srv/svc"⟩ ⟨"sudo", ["make", "install"]⟩]
        (trace.map (·.request)) :=
  ⟨validate_placed rfl "/opt/ha", rfl, rfl, by decide, by decide, _, _,
    runs_steady (t := (placed "/srv/svc" "/opt/ha").build "build") rfl, by decide +kernel⟩

end Config

end DaemonKeeper
