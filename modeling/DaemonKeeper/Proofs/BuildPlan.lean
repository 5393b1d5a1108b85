import DaemonKeeper.Project
import DaemonKeeper.Proofs.Plan
set_option autoImplicit false

/-!
# Recipes follow a fixed plan (SPEC §3.3)

What a recipe runs is known before it is run: the tree and the name of the build fix the commands
and the directories they run in.  The replies of the machine decide only how far a recipe comes.  It
stops at the first command that fails, at a commit that cannot be told, or at a build directory that
cannot be prepared.
-/

namespace DaemonKeeper

/-! ## Steps -/

/-- A step of a recipe. -/
inductive BuildStep where
  /-- Run a command, given by its words. -/
  | command (directory : Path) (words : List String)
  /-- Look up the commit that a reference names. -/
  | lookUp (directory : Path) (reference : String)
  /-- Create a build directory and mark it. -/
  | prepare (directory : Path)

namespace BuildStep

/-- The command that a step sends: where, and its words. -/
def sends : BuildStep → Option (Path × List String)
  | .command directory words => some (directory, words)
  | .lookUp directory reference => some (directory, ["git", "rev-parse", reference])
  | .prepare _ => none

/-- What is exchanged in a step that is done. -/
inductive Done : BuildStep → List Exchange → Prop where
  | command {directory : Path} {command : Command} {output : Output} :
    Done (.command directory command.argv) [⟨.run directory command, .ok output⟩]
  | lookUp {directory : Path} {reference : String} {output : Output} :
    output.stdout.length = 1 →
    Done (.lookUp directory reference)
      [⟨.run directory ⟨"git", ["rev-parse", reference]⟩, .ok output⟩]
  | created {directory : Path} : Done (.prepare directory) [⟨.createDirectory directory, .ok ()⟩]
  | marked {directory : Path} {text : String} :
    Done (.prepare directory) [⟨.createDirectory directory, .ok ()⟩,
      ⟨.writeFile (directory.join "commit") text, .ok ()⟩]

/-- What is exchanged in a step that stops the recipe, and the fault it stops with. -/
inductive Stops : BuildStep → List Exchange → Fault → Prop where
  | command {directory : Path} {command : Command} {fault : Fault} :
    Stops (.command directory command.argv) [⟨.run directory command, .error fault⟩] fault
  | lookUp {directory : Path} {reference : String} {fault : Fault} :
    Stops (.lookUp directory reference)
      [⟨.run directory ⟨"git", ["rev-parse", reference]⟩, .error fault⟩] fault
  | ambiguous {directory : Path} {reference : String} {output : Output} :
    output.stdout.length ≠ 1 →
    Stops (.lookUp directory reference)
      [⟨.run directory ⟨"git", ["rev-parse", reference]⟩, .ok output⟩]
      (.ambiguousReference reference output.stdout.length)
  | notCreated {directory : Path} {cause : IoFault} :
    Stops (.prepare directory) [⟨.createDirectory directory, .error cause⟩] (.io cause)
  | notMarked {directory : Path} {text : String} {cause : IoFault} :
    Stops (.prepare directory) [⟨.createDirectory directory, .ok ()⟩,
      ⟨.writeFile (directory.join "commit") text, .error cause⟩] (.io cause)

/-- How the steps of a recipe go. -/
def conduct : Conduct BuildStep Fault := ⟨Done, Stops⟩

/-- What is asked for in a step. -/
inductive Asks : BuildStep → Request → Prop where
  | command {directory : Path} {command : Command} :
    Asks (.command directory command.argv) (.run directory command)
  | lookUp {directory : Path} {reference : String} :
    Asks (.lookUp directory reference) (.run directory ⟨"git", ["rev-parse", reference]⟩)
  | create {directory : Path} : Asks (.prepare directory) (.createDirectory directory)
  | mark {directory : Path} {text : String} :
    Asks (.prepare directory) (.writeFile (directory.join "commit") text)

theorem asks_of_done {s : BuildStep} {trace : List Exchange} (h : s.Done trace) :
    ∀ e ∈ trace, s.Asks e.request := by
  cases h with
  | command => exact List.forall_mem_singleton.mpr .command
  | lookUp _ => exact List.forall_mem_singleton.mpr .lookUp
  | created => exact List.forall_mem_singleton.mpr .create
  | marked => exact List.forall_mem_cons.mpr ⟨.create, List.forall_mem_singleton.mpr .mark⟩

theorem asks_of_stops {s : BuildStep} {trace : List Exchange} {fault : Fault}
    (h : s.Stops trace fault) : ∀ e ∈ trace, s.Asks e.request := by
  cases h with
  | command => exact List.forall_mem_singleton.mpr .command
  | lookUp => exact List.forall_mem_singleton.mpr .lookUp
  | ambiguous _ => exact List.forall_mem_singleton.mpr .lookUp
  | notCreated => exact List.forall_mem_singleton.mpr .create
  | notMarked => exact List.forall_mem_cons.mpr ⟨.create, List.forall_mem_singleton.mpr .mark⟩

end BuildStep

/-- The command that a request sends: where, and its words. -/
def Request.sends : Request → Option (Path × List String)
  | .run directory command => some (directory, command.argv)
  | _ => none

/-- The commands of a trace. -/
def sent (trace : List Exchange) : List (Path × List String) :=
  trace.filterMap (·.request.sends)

/-- The commands of a plan. -/
def planned (plan : List BuildStep) : List (Path × List String) := plan.filterMap BuildStep.sends

theorem planned_append (plan more : List BuildStep) :
    planned (plan ++ more) = planned plan ++ planned more :=
  List.filterMap_append

namespace BuildStep

variable {s : BuildStep} {plan done left : List BuildStep} {trace : List Exchange} {fault : Fault}

/-- A request sends the command of its step, if it sends one at all. -/
theorem Asks.sends {q : Request} (h : s.Asks q) : q.sends = s.sends := by
  cases h <;> rfl

theorem sent_of_done (h : s.Done trace) : sent trace = s.sends.toList := by
  cases h <;> rfl

theorem sent_of_stops (h : s.Stops trace fault) : sent trace = s.sends.toList := by
  cases h <;> rfl

theorem sent_of_carried (h : conduct.Carried plan trace none) : sent trace = planned plan :=
  h.filterMap_eq fun _ _ hdone => sent_of_done hdone

theorem sent_of_stoppedAt (h : conduct.StoppedAt plan done s left trace fault) :
    sent trace = planned (done ++ [s]) := by
  obtain ⟨before, final, rfl, hbefore, hstops⟩ := h.carried
  have hlast : planned [s] = s.sends.toList := by
    cases hs : s.sends <;> simp [planned, hs]
  rw [planned_append, hlast, ← sent_of_carried hbefore, ← sent_of_stops hstops]
  exact List.filterMap_append

end BuildStep

/-- A task that follows the steps of a recipe. -/
abbrev Task.FollowsSteps {α : Type} (plan : List BuildStep) (Right : α → Prop) (t : Task α) :
    Prop :=
  t.Follows BuildStep.conduct plan Right

/-- A task that follows the steps of a recipe, whatever its result is. -/
abbrev Task.Takes {α : Type} (t : Task α) (plan : List BuildStep) : Prop :=
  t.FollowsSteps plan fun _ => True

/-- Whatever is asked for in a run of such a task, a step of the plan asks for it. -/
theorem Task.FollowsSteps.asks {α : Type} {plan : List BuildStep} {Right : α → Prop} {t : Task α}
    {trace : List Exchange} {outcome : Except Fault α} (h : t.FollowsSteps plan Right)
    (hruns : Action.Runs t.attempt trace outcome) :
    ∀ e ∈ trace, ∃ s ∈ plan, s.Asks e.request :=
  h.composes_steps (.of_forall fun e => ∃ s ∈ plan, s.Asks e.request)
    (fun s hs _ hdone e he => ⟨s, hs, BuildStep.asks_of_done hdone e he⟩)
    (fun s hs _ _ hstops e he => ⟨s, hs, BuildStep.asks_of_stops hstops e he⟩) hruns

/-! ## The tasks of one step -/

theorem Task.takes_run (directory : Path) (command : Command) :
    (Task.run directory command).Takes [.command directory command.argv] where
  ok trace output h := by
    obtain rfl := Action.runs_request_iff.mp h
    exact ⟨trivial, .single .command⟩
  error trace fault h := by
    obtain rfl := Action.runs_request_iff.mp h
    exact .stop .command

theorem Build.takes_effect (directory : Path) (command : Command) :
    (Build.effect directory command).Takes [.command directory command.argv] :=
  (Task.takes_run directory command).andReturn trivial

/-- An output that names a commit is one line. -/
theorem Git.length_of_singleLine_eq_ok {reference line : String} {output : Output}
    (h : Git.singleLine reference output = .ok line) : output.stdout.length = 1 := by
  unfold Git.singleLine at h
  split at h
  · rename_i hline
    rw [hline, List.length_singleton]
  · cases h

/-- Any other output is ambiguous. -/
theorem Git.of_singleLine_eq_error {reference : String} {output : Output} {fault : Fault}
    (h : Git.singleLine reference output = .error fault) :
    output.stdout.length ≠ 1 ∧ fault = .ambiguousReference reference output.stdout.length := by
  unfold Git.singleLine at h
  split at h
  · cases h
  · rename_i hlines
    refine ⟨fun hone => ?_, (Except.error.inj h).symm⟩
    obtain ⟨line, hline⟩ := List.length_eq_one_iff.mp hone
    exact hlines line hline

/-- A commit is looked up by one command, whose output must be one line. -/
theorem Git.Repository.takes_headCommit (r : Git.Repository) (reference : String) :
    (r.headCommit reference).Takes [.lookUp r.directory reference] where
  ok trace commit h := by
    obtain ⟨first, second, output, rfl, hgit, hline⟩ := Task.runs_bind_ok_iff.mp h
    obtain rfl := Action.runs_request_iff.mp hgit
    obtain ⟨rfl, hone⟩ := Action.runs_done_iff.mp hline
    exact ⟨trivial, .single (.lookUp (Git.length_of_singleLine_eq_ok hone.symm))⟩
  error trace fault h := by
    rcases Task.runs_bind_error_iff.mp h with hgit | ⟨first, second, output, rfl, hgit, hline⟩
    · obtain rfl := Action.runs_request_iff.mp hgit
      exact .stop .lookUp
    · obtain rfl := Action.runs_request_iff.mp hgit
      obtain ⟨rfl, hmany⟩ := Action.runs_done_iff.mp hline
      obtain ⟨hlength, rfl⟩ := Git.of_singleLine_eq_error hmany.symm
      exact .stop (.ambiguous hlength)

/-- A build directory is created, and marked unless the commit is empty. -/
theorem Build.Cmake.takes_prepare (b : Build.Cmake) : b.prepare.Takes [.prepare b.buildDir] where
  ok trace result h := by
    obtain ⟨first, second, _, rfl, hcreate, hmark⟩ := Task.runs_bind_ok_iff.mp h
    obtain rfl := Action.runs_request_iff.mp (Task.runs_of_runs_ofIo_ok hcreate)
    refine ⟨trivial, .single ?_⟩
    split at hmark
    · obtain ⟨rfl, -⟩ := Action.runs_done_iff.mp hmark
      exact .created
    · obtain rfl := Action.runs_request_iff.mp (Task.runs_of_runs_ofIo_ok hmark)
      exact .marked
  error trace fault h := by
    rcases Task.runs_bind_error_iff.mp h with hcreate | ⟨first, second, _, rfl, hcreate, hmark⟩
    · obtain ⟨cause, hrefused, rfl⟩ := Task.runs_of_runs_ofIo_error hcreate
      obtain rfl := Action.runs_request_iff.mp hrefused
      exact .stop .notCreated
    · obtain rfl := Action.runs_request_iff.mp (Task.runs_of_runs_ofIo_ok hcreate)
      split at hmark
      · cases (Action.runs_done_iff.mp hmark).2
      · obtain ⟨cause, hrefused, rfl⟩ := Task.runs_of_runs_ofIo_error hmark
        obtain rfl := Action.runs_request_iff.mp hrefused
        exact .stop .notMarked

/-! ## Commands of the builds -/

namespace Build

theorem argv_installCommand (privilegePrefix : List String) :
    (installCommand privilegePrefix).argv = privilegePrefix ++ ["make", "install"] := by
  simp [installCommand]

theorem Cmake.argv_configureCommand (b : Cmake) :
    b.configureCommand.argv =
      "cmake" :: b.flags ++ ["-DCMAKE_BUILD_TYPE=" ++ b.buildType.name, b.sourceDir.text] := by
  simp [configureCommand]

theorem takes_make (directory : Path) (jobs : Nat) :
    (effect directory (makeCommand jobs)).Takes
      [.command directory ["make", "-j", toString jobs]] :=
  takes_effect directory (makeCommand jobs)

theorem takes_install (directory : Path) (privilegePrefix : List String) :
    (effect directory (installCommand privilegePrefix)).Takes
      [.command directory (privilegePrefix ++ ["make", "install"])] := by
  rw [← argv_installCommand]
  exact takes_effect directory (installCommand privilegePrefix)

theorem Cmake.takes_configure (b : Cmake) :
    b.configure.Takes [.command b.buildDir
      ("cmake" :: b.flags ++ ["-DCMAKE_BUILD_TYPE=" ++ b.buildType.name, b.sourceDir.text])] := by
  rw [← b.argv_configureCommand]
  exact takes_effect b.buildDir b.configureCommand

/-! ## Plans -/

/-- The plan of a vendored library. -/
def Vendored.plan (v : Vendored) (buildName : String) : List BuildStep :=
  [.command (v.directory.join "third-party") ["make", "-j", "1"],
    .prepare (v.directory.join buildName),
    .command (v.directory.join buildName)
      ["cmake", "-DCMAKE_BUILD_TYPE=Release", v.directory.text],
    .command (v.directory.join buildName) ["make", "-j", toString v.jobs],
    .command (v.directory.join buildName) (v.privilegePrefix ++ ["make", "install"])]

theorem Vendored.takes_build (v : Vendored) (buildName : String) :
    (v.build buildName).Takes (v.plan buildName) := by
  refine (takes_make v.thirdParty.directory 1).bind fun _ _ => ?_
  refine (v.library buildName).takes_prepare.bind fun _ _ => ?_
  refine (v.library buildName).takes_configure.bind fun _ _ => ?_
  refine (takes_make (v.library buildName).buildDir v.jobs).bind fun _ _ => ?_
  exact takes_install (v.library buildName).buildDir v.privilegePrefix

end Build

namespace Project

/-- The plan of a project itself, after its vendored libraries. -/
def selfPlan (p : Project) (buildName : String) : List BuildStep :=
  match p.spec.buildSystem with
  | .cmake =>
    let directory := p.repository.directory.join buildName
    [.prepare directory,
      .command directory ("cmake" :: p.spec.cmakeFlags ++
        ["-DCMAKE_BUILD_TYPE=" ++ p.spec.buildType.name, p.repository.directory.text]),
      .command directory ["make", "-j", toString p.jobs]]
      ++ if p.spec.install then [.command directory (p.privilegePrefix ++ ["make", "install"])]
        else []
  | .make =>
    .command p.repository.directory ["make", "-j", toString p.jobs] ::
      if p.spec.install then
        [.command p.repository.directory (p.privilegePrefix ++ ["make", "install"])]
      else []

/-- The plan of a project without its dependencies. -/
def ownPlan (p : Project) (buildName : String) : List BuildStep :=
  .lookUp p.repository.directory p.spec.branch ::
    (p.spec.vendored.flatMap fun relative => (p.vendoredLibrary relative).plan buildName)
    ++ p.selfPlan buildName

mutual
/-- The plan of a whole recipe, dependencies first. -/
def plan (p : Project) (buildName : String) : List BuildStep :=
  match p with
  | ⟨name, spec, repository, dependencies, privilegePrefix, jobs⟩ =>
    planAll dependencies buildName
      ++ ownPlan ⟨name, spec, repository, dependencies, privilegePrefix, jobs⟩ buildName

/-- The plans of trees in order. -/
def planAll (ps : List Project) (buildName : String) : List BuildStep :=
  match ps with
  | [] => []
  | p :: rest => p.plan buildName ++ planAll rest buildName
end

variable (p : Project) (buildName : String)

theorem takes_buildVendored (relatives : List String) :
    (p.buildVendored buildName relatives).Takes
      (relatives.flatMap fun relative => (p.vendoredLibrary relative).plan buildName) := by
  induction relatives with
  | nil => exact .pure trivial
  | cons relative rest ih =>
    exact ((p.vendoredLibrary relative).takes_build buildName).bind fun _ _ => ih

/-- A project is installed only if it says so. -/
theorem takes_ite_install (install : Bool) {t : Task Unit} {plan : List BuildStep}
    (h : t.Takes plan) :
    (if install then t else pure () : Task Unit).Takes (if install then plan else []) := by
  cases install with
  | true => exact h
  | false => exact .pure trivial

theorem takes_buildSelf (commit : String) :
    (p.buildSelf buildName commit).Takes (p.selfPlan buildName) := by
  unfold buildSelf selfPlan
  cases hsystem : p.spec.buildSystem with
  | cmake =>
    have hdirectory : p.outputDir buildName = p.repository.directory.join buildName := by
      rw [outputDir, hsystem]
    rw [← hdirectory]
    refine (p.cmakeBuild buildName commit).takes_prepare.bind fun _ _ => ?_
    refine (p.cmakeBuild buildName commit).takes_configure.bind fun _ _ => ?_
    refine (Build.takes_make (p.outputDir buildName) p.jobs).bind fun _ _ => ?_
    exact takes_ite_install p.spec.install (Build.takes_install _ p.privilegePrefix)
  | make =>
    have hdirectory : p.outputDir buildName = p.repository.directory := by
      rw [outputDir, hsystem]
    rw [← hdirectory]
    refine (Build.takes_make (p.outputDir buildName) p.jobs).bind fun _ _ => ?_
    exact takes_ite_install p.spec.install (Build.takes_install _ p.privilegePrefix)

theorem follows_buildOwn :
    (p.buildOwn buildName).FollowsSteps (p.ownPlan buildName) (· = p.outputDir buildName) := by
  refine (p.repository.takes_headCommit p.spec.branch).bind fun commit _ => ?_
  refine (p.takes_buildVendored buildName p.spec.vendored).bind fun _ _ => ?_
  exact (p.takes_buildSelf buildName commit).andReturn rfl

mutual
/-- A recipe follows its plan, and answers the output directory of the root. -/
theorem follows_build (p : Project) (buildName : String) :
    (p.build buildName).FollowsSteps (p.plan buildName) (· = p.outputDir buildName) :=
  match p with
  | ⟨_, _, _, dependencies, _, _⟩ => by
    unfold build plan
    exact (takes_buildAll dependencies buildName).bind fun _ _ => follows_buildOwn _ buildName

/-- So do recipes in order. -/
theorem takes_buildAll (ps : List Project) (buildName : String) :
    (buildAll ps buildName).Takes (planAll ps buildName) :=
  match ps with
  | [] => by
    unfold buildAll planAll
    exact .pure trivial
  | p :: rest => by
    unfold buildAll planAll
    exact (follows_build p buildName).bind fun _ _ => takes_buildAll rest buildName
end

/-! ## The end of a plan -/

theorem exists_selfPlan_eq_append_command :
    ∃ before directory words, p.selfPlan buildName = before ++ [.command directory words] := by
  unfold selfPlan
  cases p.spec.buildSystem <;> cases p.spec.install
  · exact ⟨[_, _], _, _, rfl⟩
  · exact ⟨[_, _, _], _, _, rfl⟩
  · exact ⟨[], _, _, rfl⟩
  · exact ⟨[_], _, _, rfl⟩

/-- The last step of a plan is a command. -/
theorem exists_getLast?_plan :
    ∃ directory words, (p.plan buildName).getLast? = some (.command directory words) := by
  cases p with
  | mk name spec repository dependencies privilegePrefix jobs =>
    obtain ⟨before, directory, words, hself⟩ := exists_selfPlan_eq_append_command
      ⟨name, spec, repository, dependencies, privilegePrefix, jobs⟩ buildName
    unfold plan ownPlan
    rw [hself, ← List.append_assoc, ← List.append_assoc, List.getLast?_concat]
    exact ⟨directory, words, rfl⟩

variable {p buildName} {done left : List BuildStep} {last : BuildStep} {trace : List Exchange}
variable {fault : Fault} {outcome : Except Fault Path}

/-- A recipe that was stopped has sent all commands of its plan only if it was stopped at the last
step, since that is one of them. -/
theorem sent_eq_planned_iff_of_stoppedAt
    (h : BuildStep.conduct.StoppedAt (p.plan buildName) done last left trace fault) :
    sent trace = planned (p.plan buildName) ↔ left = [] := by
  rw [BuildStep.sent_of_stoppedAt h, h.plan_eq, planned_append _ left, List.self_eq_append_right]
  constructor
  · intro hnone
    by_contra hne
    -- If something was left, so was the last step of the plan, whose command is not sent then.
    obtain ⟨directory, words, hend⟩ := p.exists_getLast?_plan buildName
    rw [h.plan_eq, List.getLast?_append_of_ne_nil _ hne] at hend
    have hmem : (directory, words) ∈ planned left :=
      List.mem_filterMap.mpr ⟨_, List.mem_of_getLast? hend, rfl⟩
    rw [hnone] at hmem
    cases hmem
  · rintro rfl
    rfl

/-- A recipe is stopped at the last step of its plan, which is a command that failed. -/
def FailsAtLast (p : Project) (buildName : String) (trace : List Exchange) (fault : Fault) : Prop :=
  ∃ done directory words, BuildStep.conduct.StoppedAt (p.plan buildName) done
    (.command directory words) [] trace fault

/-- Only then were all commands of the plan sent. -/
theorem sent_eq_planned_iff_failsAtLast
    (h : BuildStep.conduct.StoppedAt (p.plan buildName) done last left trace fault) :
    sent trace = planned (p.plan buildName) ↔ p.FailsAtLast buildName trace fault := by
  constructor
  · intro hall
    obtain rfl := (sent_eq_planned_iff_of_stoppedAt h).mp hall
    obtain ⟨directory, words, hend⟩ := p.exists_getLast?_plan buildName
    rw [h.plan_eq, List.append_nil, List.getLast?_concat] at hend
    obtain rfl := Option.some.inj hend
    exact ⟨done, directory, words, h⟩
  · rintro ⟨done', directory, words, hlast⟩
    exact (sent_eq_planned_iff_of_stoppedAt hlast).mpr rfl

/-! ## Recipes -/

/-- Whatever the machine replies, the commands that a recipe sends are the beginning of its plan.
They are all of it if and only if the recipe succeeds, with the output directory of the root, or the
last command of the plan is sent and fails.  A recipe that fails was stopped at a step of the plan:
it ends with what that step exchanged, and with its fault. -/
theorem build_follows_plan (h : Action.Runs (p.build buildName).attempt trace outcome) :
    sent trace <+: planned (p.plan buildName) ∧
    (sent trace = planned (p.plan buildName) ↔ outcome = .ok (p.outputDir buildName) ∨
      ∃ fault, outcome = .error fault ∧ p.FailsAtLast buildName trace fault) ∧
    (∀ path, outcome = .ok path → path = p.outputDir buildName) ∧
    ∀ fault, outcome = .error fault → ∃ done last left,
      BuildStep.conduct.StoppedAt (p.plan buildName) done last left trace fault ∧
        sent trace = planned (done ++ [last]) := by
  have hfollows := p.follows_build buildName
  cases outcome with
  | ok path =>
    obtain ⟨rfl, hcarried⟩ := hfollows.ok trace path h
    have hall := BuildStep.sent_of_carried hcarried
    refine ⟨hall ▸ List.prefix_refl _, ⟨fun _ => .inl rfl, fun _ => hall⟩, ?_, nofun⟩
    exact fun path hpath => (Except.ok.inj hpath).symm
  | error fault =>
    obtain ⟨done, last, left, hstopped⟩ := (hfollows.error trace fault h).exists_stoppedAt
    have hsent := BuildStep.sent_of_stoppedAt hstopped
    refine ⟨?_, ?_, nofun, ?_⟩
    · rw [hsent, hstopped.plan_eq, planned_append _ left]
      exact List.prefix_append _ _
    · rw [sent_eq_planned_iff_failsAtLast hstopped]
      constructor
      · exact fun hlast => .inr ⟨fault, rfl, hlast⟩
      · rintro (hok | ⟨fault', hfault, hlast⟩)
        · cases hok
        · rwa [Except.error.inj hfault]
    · intro fault' hfault
      obtain rfl := Except.error.inj hfault
      exact ⟨done, last, left, hstopped, hsent⟩

/-! ## Two recipes -/

/-- A project that is made where its sources are. -/
def plainProject : Project :=
  { name := "svc"
    spec := { repository := "svc", buildSystem := .make }
    repository :=
      { parent := ⟨"."⟩, name := "svc", branch := "master", host := "github.com",
        organization := "acme" }
    dependencies := []
    privilegePrefix := ["sudo"]
    jobs := 1 }

/-- Its commit is looked up, then it is compiled. -/
def plainTrace (compiled : Except Fault Output) : List Exchange :=
  [⟨.run ⟨"./svc"⟩ ⟨"git", ["rev-parse", "master"]⟩, .ok (.ofLines ["aaa"])⟩,
    ⟨.run ⟨"./svc"⟩ ⟨"make", ["-j", "1"]⟩, compiled⟩]

/-- A project after the plain one, with a vendored library: it is configured in a directory of its
own, compiled and installed. -/
def layeredProject : Project :=
  { name := "app"
    spec :=
      { repository := "app", branch := "dev", buildSystem := .cmake
        cmakeFlags := ["-DWITH_TLS=ON"], vendored := ["ha"], install := true }
    repository := { plainProject.repository with name := "app", branch := "dev" }
    dependencies := [plainProject]
    privilegePrefix := ["sudo"]
    jobs := 4 }

/-- What is exchanged for it up to the configuration of the vendored library. -/
def layeredStart (configured : Except Fault Output) : List Exchange :=
  plainTrace (.ok .silent) ++
    [⟨.run ⟨"./app"⟩ ⟨"git", ["rev-parse", "dev"]⟩, .ok (.ofLines ["bbb"])⟩,
      ⟨.run ⟨"./app/ha/third-party"⟩ ⟨"make", ["-j", "1"]⟩, .ok .silent⟩,
      ⟨.createDirectory ⟨"./app/ha/build"⟩, .ok ()⟩,
      ⟨.run ⟨"./app/ha/build"⟩ ⟨"cmake", ["-DCMAKE_BUILD_TYPE=Release", "./app/ha"]⟩, configured⟩]

/-- And what after it. -/
def layeredRest : List Exchange :=
  [⟨.run ⟨"./app/ha/build"⟩ ⟨"make", ["-j", "4"]⟩, .ok .silent⟩,
    ⟨.run ⟨"./app/ha/build"⟩ ⟨"sudo", ["make", "install"]⟩, .ok .silent⟩,
    ⟨.createDirectory ⟨"./app/build"⟩, .ok ()⟩,
    ⟨.writeFile ⟨"./app/build/commit"⟩ "bbb", .ok ()⟩,
    ⟨.run ⟨"./app/build"⟩
      ⟨"cmake", ["-DWITH_TLS=ON", "-DCMAKE_BUILD_TYPE=Release", "./app"]⟩, .ok .silent⟩,
    ⟨.run ⟨"./app/build"⟩ ⟨"make", ["-j", "4"]⟩, .ok .silent⟩,
    ⟨.run ⟨"./app/build"⟩ ⟨"sudo", ["make", "install"]⟩, .ok .silent⟩]

/-- The recipe sends all ten commands and answers the build directory.  If the vendored library
cannot be configured, it sends the first five, is stopped there, and its fault is that of the
command. -/
theorem build_follows_plan_layered :
    Action.Runs (layeredProject.build "build").attempt (layeredStart (.ok .silent) ++ layeredRest)
        (.ok ⟨"./app/build"⟩) ∧
      sent (layeredStart (.ok .silent) ++ layeredRest) = planned (layeredProject.plan "build") ∧
      (planned (layeredProject.plan "build")).length = 10 ∧
    ∃ fault, Action.Runs (layeredProject.build "build").attempt (layeredStart (.error fault))
        (.error fault) ∧
      sent (layeredStart (.error fault)) <+: planned (layeredProject.plan "build") ∧
      (sent (layeredStart (.error fault))).length = 5 ∧
      ∃ done last left,
        BuildStep.conduct.StoppedAt (layeredProject.plan "build") done last left
          (layeredStart (.error fault)) fault ∧
        sent (layeredStart (.error fault)) = planned (done ++ [last]) := by
  have hbuilt : Action.Runs (layeredProject.build "build").attempt
      (layeredStart (.ok .silent) ++ layeredRest) (.ok ⟨"./app/build"⟩) :=
    Action.runs_of_replay rfl
  refine ⟨hbuilt, (build_follows_plan hbuilt).2.1.mpr (.inl rfl), by decide +kernel,
    .commandFailed "cmake" 1 [] [], ?_⟩
  have hstopped : Action.Runs (layeredProject.build "build").attempt
      (layeredStart (.error (.commandFailed "cmake" 1 [] [])))
      (.error (.commandFailed "cmake" 1 [] [])) := Action.runs_of_replay rfl
  obtain ⟨hbeginning, -, -, herror⟩ := build_follows_plan hstopped
  exact ⟨hstopped, hbeginning, rfl, herror _ rfl⟩

/-- If the last command of a plan fails, all commands of the plan were sent, and yet the recipe
fails. -/
theorem whole_plan_sent_and_failed :
    Action.Runs (plainProject.build "build").attempt
        (plainTrace (.error (.commandFailed "make -j 1" 2 [] [])))
        (.error (.commandFailed "make -j 1" 2 [] [])) ∧
      sent (plainTrace (.error (.commandFailed "make -j 1" 2 [] []))) =
        planned (plainProject.plan "build") :=
  ⟨Action.runs_of_replay rfl, rfl⟩

end Project

end DaemonKeeper
