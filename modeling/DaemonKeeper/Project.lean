import DaemonKeeper.Build.Adapter
import DaemonKeeper.Git.Repository
set_option autoImplicit false

/-!
# Projects: recipes and their trees (SPEC §3.3)

A project is resolved from the configuration into a tree (`resolve`): each project it comes after is
itself a whole project below it.  Nothing is shared or flattened, so a project that two others come
after appears, and is built, once under each of them.

Three operations go through the tree.  `cloneSources` and `build` take the dependencies first, in
the order in which they are declared; `hasUpstreamChange` takes the root first and stops at the
first repository that has something new.
-/

namespace DaemonKeeper

/-- A project with the projects it comes after. -/
structure Project where
  name : String
  spec : ProjectSpec
  repository : Git.Repository
  dependencies : List Project
  privilegePrefix : List String
  jobs : Nat

namespace Project

/-- The repository of a project of a configuration. -/
def repositoryOf (cfg : Config) (spec : ProjectSpec) : Git.Repository :=
  { parent := cfg.settings.workspace
    name := spec.repository
    branch := spec.branch
    host := cfg.settings.gitHost
    organization := cfg.settings.organization }

/-- Resolves a project whose dependencies are nested at most `depth` deep.  Deeper than the number
of projects, one of them would have to come after itself. -/
def resolveWithin (cfg : Config) (cpus : Nat) (depth : Nat) (name : String) :
    Except Fault Project :=
  match cfg.projects.get? name with
  | none => .error (.invalidConfig (.noSuchProject name))
  | some spec =>
    match depth with
    | 0 => .error (.dependencyCycle name)
    | depth + 1 => do
      let dependencies ← spec.after.mapM (resolveWithin cfg cpus depth)
      return {
        name, spec, dependencies
        repository := repositoryOf cfg spec
        privilegePrefix := cfg.settings.privilegePrefix
        jobs := spec.effectiveJobs cpus }

/-- The tree of a project on a machine with `cpus` processors. -/
def resolve (cfg : Config) (cpus : Nat) (name : String) : Except Fault Project :=
  resolveWithin cfg cpus cfg.projects.size name

/-- The directory that holds the output of a build. -/
def outputDir (p : Project) (buildName : String) : Path :=
  match p.spec.buildSystem with
  | .cmake => p.repository.directory.join buildName
  | .make => p.repository.directory

/-! ## Sources -/

mutual
/-- Clones or updates every repository of the tree and checks out its branch, dependencies first. -/
def cloneSources (p : Project) : Task Unit :=
  match p with
  | ⟨_, _, repository, dependencies, _, _⟩ => do
    cloneAll dependencies
    repository.clone
    repository.checkout

/-- Clones or updates the repositories of trees in order. -/
def cloneAll (ps : List Project) : Task Unit :=
  match ps with
  | [] => return ()
  | p :: rest => do
    cloneSources p
    cloneAll rest
end

mutual
/-- Some repository of the tree has new commits upstream.  The root is asked first, and nobody is
asked after the first that has. -/
def hasUpstreamChange (p : Project) : Task Bool :=
  match p with
  | ⟨_, _, repository, dependencies, _, _⟩ => do
    if ← repository.hasUpstreamChange then return true
    else anyUpstreamChange dependencies

/-- Some repository of the trees has new commits upstream. -/
def anyUpstreamChange (ps : List Project) : Task Bool :=
  match ps with
  | [] => return false
  | p :: rest => do
    if ← hasUpstreamChange p then return true
    else anyUpstreamChange rest
end

/-! ## Building -/

/-- The vendored library in a directory of the repository. -/
def vendoredLibrary (p : Project) (relative : String) : Build.Vendored :=
  { directory := p.repository.directory.join relative
    jobs := p.jobs
    privilegePrefix := p.privilegePrefix }

/-- The configured build of a commit. -/
def cmakeBuild (p : Project) (buildName commit : String) : Build.Cmake :=
  { buildDir := p.outputDir buildName
    sourceDir := p.repository.directory
    buildType := p.spec.buildType
    flags := p.spec.cmakeFlags
    commit
    jobs := p.jobs
    privilegePrefix := p.privilegePrefix }

/-- The plain build. -/
def makeBuild (p : Project) (buildName : String) : Build.Make :=
  { directory := p.outputDir buildName
    jobs := p.jobs
    privilegePrefix := p.privilegePrefix }

/-- The build of the project itself, without its dependencies and vendored libraries. -/
def buildSelf (p : Project) (buildName commit : String) : Task Unit := do
  match p.spec.buildSystem with
  | .cmake =>
    (p.cmakeBuild buildName commit).prepare
    (p.cmakeBuild buildName commit).configure
    (p.cmakeBuild buildName commit).compile
    if p.spec.install then (p.cmakeBuild buildName commit).install
  | .make =>
    (p.makeBuild buildName).compile
    if p.spec.install then (p.makeBuild buildName).install

/-- The vendored libraries in order. -/
def buildVendored (p : Project) (buildName : String) : List String → Task Unit
  | [] => return ()
  | relative :: rest => do
    (p.vendoredLibrary relative).build buildName
    buildVendored p buildName rest

/-- The recipe after the dependencies: look up the commit, build the vendored libraries, build the
project. -/
def buildOwn (p : Project) (buildName : String) : Task Path := do
  let commit ← p.repository.headCommit p.spec.branch
  p.buildVendored buildName p.spec.vendored
  p.buildSelf buildName commit
  return p.outputDir buildName

mutual
/-- Runs the whole recipe, dependencies first, and answers the output directory. -/
def build (p : Project) (buildName : String) : Task Path :=
  match p with
  | ⟨name, spec, repository, dependencies, privilegePrefix, jobs⟩ => do
    buildAll dependencies buildName
    buildOwn ⟨name, spec, repository, dependencies, privilegePrefix, jobs⟩ buildName

/-- Runs the recipes of trees in order. -/
def buildAll (ps : List Project) (buildName : String) : Task Unit :=
  match ps with
  | [] => return ()
  | p :: rest => do
    let _ ← build p buildName
    buildAll rest buildName
end

end Project

end DaemonKeeper
