import DaemonKeeper.Proofs.Validation
import DaemonKeeper.Supervisor
import Mathlib.Data.List.Chain
set_option autoImplicit false

/-!
# Resolution unfolds what projects come after (SPEC §3.3)

Resolution follows the names that a project comes after until there are none.  It is written with a
bound on the depth; in a configuration that was accepted the bound is never felt, since nobody comes
after itself and a way down the tree meets each project at most once.  Resolution is then the
recursion without a bound: below each node stand the trees of the projects it comes after, in the
order in which they are named and as often.
-/

namespace DaemonKeeper

open Relation

namespace Project

/-! ## One level -/

/-- One level of resolution: the projects that a project comes after are resolved by `resolveOther`.
-/
def resolveBy (cfg : Config) (cpus : Nat) (resolveOther : String → Except Fault Project)
    (name : String) : Except Fault Project :=
  match cfg.projects.get? name with
  | none => .error (.invalidConfig (.noSuchProject name))
  | some spec => do
    let dependencies ← spec.after.mapM resolveOther
    return {
      name, spec, dependencies
      repository := repositoryOf cfg spec
      privilegePrefix := cfg.settings.privilegePrefix
      jobs := spec.effectiveJobs cpus }

/-- A node says what the configuration says of its project, and has the projects below it that it
comes after. -/
structure Shows (cfg : Config) (cpus : Nat) (node : Project) : Prop where
  configured : cfg.projects.get? node.name = some node.spec
  dependencies : node.dependencies.map (·.name) = node.spec.after
  repository : node.repository = repositoryOf cfg node.spec
  privilegePrefix : node.privilegePrefix = cfg.settings.privilegePrefix
  jobs : node.jobs = node.spec.effectiveJobs cpus

variable {cfg : Config} {cpus depth deeper : Nat} {name : String} {tree node : Project}
variable {f g : String → Except Fault Project}

theorem resolveBy_of_unknown (h : name ∉ cfg.projects.names) :
    resolveBy cfg cpus f name = .error (.invalidConfig (.noSuchProject name)) := by
  unfold resolveBy
  rw [ProjectTable.get?_eq_none_iff.mpr h]

/-- It succeeds if and only if the project exists and those it comes after are resolved. -/
theorem exists_resolveBy_iff :
    (∃ tree, resolveBy cfg cpus f name = .ok tree) ↔
      name ∈ cfg.projects.names ∧
        ∀ dependency, cfg.projects.ComesAfter name dependency → ∃ d, f dependency = .ok d := by
  unfold resolveBy ProjectTable.ComesAfter
  cases hspec : cfg.projects.get? name with
  | none =>
    constructor
    · rintro ⟨tree, h⟩
      cases h
    · rintro ⟨hname, -⟩
      exact absurd hname (ProjectTable.get?_eq_none_iff.mp hspec)
  | some spec =>
    simp only [bind_eq_ok_iff, Option.some.injEq, exists_eq_left']
    constructor
    · rintro ⟨tree, dependencies, hdependencies, -⟩
      refine ⟨ProjectTable.mem_names_iff.mpr ⟨spec, hspec⟩, ?_⟩
      exact exists_mapM_eq_ok_iff.mp ⟨dependencies, hdependencies⟩
    · rintro ⟨-, h⟩
      obtain ⟨dependencies, hdependencies⟩ := exists_mapM_eq_ok_iff.mpr h
      exact ⟨_, dependencies, hdependencies, rfl⟩

/-- Only the projects that it comes after matter. -/
theorem resolveBy_congr (h : ∀ dependency, cfg.projects.ComesAfter name dependency →
    f dependency = g dependency) : resolveBy cfg cpus f name = resolveBy cfg cpus g name := by
  unfold resolveBy
  cases hspec : cfg.projects.get? name with
  | none => rfl
  | some spec =>
    have hdependencies : spec.after.mapM f = spec.after.mapM g :=
      mapM_congr fun dependency hafter => h dependency ⟨spec, hspec, hafter⟩
    dsimp only
    rw [hdependencies]

theorem name_of_resolveBy (h : resolveBy cfg cpus f name = .ok tree) : tree.name = name := by
  unfold resolveBy at h
  cases hspec : cfg.projects.get? name with
  | none =>
    rw [hspec] at h
    cases h
  | some spec =>
    rw [hspec] at h
    obtain ⟨dependencies, -, h⟩ := bind_eq_ok_iff.mp h
    obtain rfl := Except.ok.inj h
    rfl

/-- If names are resolved to trees of these names, one level makes a node of such trees. -/
theorem resolveBy_eq_ok_iff (hname : ∀ x d, f x = .ok d → d.name = x) :
    resolveBy cfg cpus f name = .ok tree ↔
      tree.name = name ∧ tree.Shows cfg cpus ∧ ∀ d ∈ tree.dependencies, f d.name = .ok d := by
  have hchildren (names : List String) (ds : List Project) : names.mapM f = .ok ds ↔
      ds.map (·.name) = names ∧ ∀ d ∈ ds, f d.name = .ok d := by
    rw [mapM_eq_ok_iff]
    constructor
    · intro h
      have hnames : ds.map (·.name) = names := by
        refine List.forall₂_eq_eq_eq ▸ ?_
        exact List.forall₂_map_left_iff.mpr (h.flip.imp fun d x hd => hname x d hd)
      rw [← hnames, List.forall₂_map_left_iff, List.forall₂_same] at h
      exact ⟨hnames, h⟩
    · rintro ⟨rfl, h⟩
      exact List.forall₂_map_left_iff.mpr (List.forall₂_same.mpr h)
  constructor
  · intro h
    have htree := name_of_resolveBy h
    unfold resolveBy at h
    cases hspec : cfg.projects.get? name with
    | none =>
      rw [hspec] at h
      cases h
    | some spec =>
      rw [hspec] at h
      obtain ⟨dependencies, hdependencies, h⟩ := bind_eq_ok_iff.mp h
      obtain rfl := Except.ok.inj h
      obtain ⟨hnames, hresolved⟩ := (hchildren _ _).mp hdependencies
      exact ⟨rfl, ⟨hspec, hnames, rfl, rfl, rfl⟩, hresolved⟩
  · rintro ⟨rfl, hshows, hdependencies⟩
    unfold resolveBy
    rw [hshows.configured]
    refine bind_eq_ok_iff.mpr ⟨tree.dependencies, ?_, ?_⟩
    · exact (hchildren _ _).mpr ⟨hshows.dependencies, hdependencies⟩
    · rw [← hshows.repository, ← hshows.privilegePrefix, ← hshows.jobs]
      cases tree
      rfl

/-! ## The bound on the depth -/

theorem resolveWithin_succ :
    resolveWithin cfg cpus (depth + 1) name =
      resolveBy cfg cpus (resolveWithin cfg cpus depth) name := by
  cases hspec : cfg.projects.get? name with
  | none => simp only [resolveWithin, resolveBy, hspec]
  | some spec => simp only [resolveWithin, resolveBy, hspec]

theorem resolveWithin_of_unknown (h : name ∉ cfg.projects.names) :
    resolveWithin cfg cpus depth name = .error (.invalidConfig (.noSuchProject name)) := by
  unfold resolveWithin
  rw [ProjectTable.get?_eq_none_iff.mpr h]

/-- Without any depth left nothing is resolved. -/
theorem resolveWithin_zero_ne_ok : resolveWithin cfg cpus 0 name ≠ .ok tree := by
  unfold resolveWithin
  cases cfg.projects.get? name <;> nofun

theorem name_of_resolveWithin (h : resolveWithin cfg cpus depth name = .ok tree) :
    tree.name = name := by
  cases depth with
  | zero => exact absurd h resolveWithin_zero_ne_ok
  | succ depth =>
    rw [resolveWithin_succ] at h
    exact name_of_resolveBy h

theorem name_of_resolve (h : resolve cfg cpus name = .ok tree) : tree.name = name :=
  name_of_resolveWithin h

theorem resolveWithin_succ_eq_ok_iff :
    resolveWithin cfg cpus (depth + 1) name = .ok tree ↔
      tree.name = name ∧ tree.Shows cfg cpus ∧
        ∀ d ∈ tree.dependencies, resolveWithin cfg cpus depth d.name = .ok d := by
  rw [resolveWithin_succ]
  exact resolveBy_eq_ok_iff fun x d => name_of_resolveWithin

/-- A tree that is found is found at every greater depth. -/
theorem resolveWithin_mono (hle : depth ≤ deeper)
    (h : resolveWithin cfg cpus depth name = .ok tree) :
    resolveWithin cfg cpus deeper name = .ok tree := by
  induction depth generalizing deeper name tree with
  | zero => exact absurd h resolveWithin_zero_ne_ok
  | succ depth ih =>
    cases deeper with
    | zero => exact absurd hle (Nat.not_succ_le_zero depth)
    | succ deeper =>
      obtain ⟨hname, hshows, hdependencies⟩ := resolveWithin_succ_eq_ok_iff.mp h
      refine resolveWithin_succ_eq_ok_iff.mpr ⟨hname, hshows, fun d hd => ?_⟩
      exact ih (Nat.le_of_succ_le_succ hle) (hdependencies d hd)

/-- As much depth is enough as there are projects that can still be met.  Going down to another
project the one that is left cannot be met again. -/
theorem exists_resolveWithin (h : cfg.toSections.Resolvable) (pool : List String)
    (hname : name ∈ cfg.projects.names)
    (hpool : ∀ x, ReflTransGen cfg.projects.ComesAfter name x → x ∈ pool)
    (hdepth : pool.length ≤ depth) : ∃ tree, resolveWithin cfg cpus depth name = .ok tree := by
  have hmem : name ∈ pool := hpool name .refl
  induction depth generalizing name pool with
  | zero => exact absurd (List.length_pos_of_mem hmem) (Nat.not_lt.mpr hdepth)
  | succ depth ih =>
    rw [resolveWithin_succ, exists_resolveBy_iff]
    refine ⟨hname, fun dependency hafter => ?_⟩
    -- Whoever is met below the dependency was to be met before, and is not the project itself.
    have hleft : ∀ x, ReflTransGen cfg.projects.ComesAfter dependency x → x ∈ pool.erase name := by
      intro x hreach
      refine (List.mem_erase_of_ne fun heq => ?_).mpr (hpool x (hreach.head hafter))
      rw [heq] at hreach
      exact ProjectTable.acyclic_of_wellFounded h.wellFounded name (.head' hafter hreach)
    have hlength : (pool.erase name).length ≤ depth := by
      rw [List.length_erase_of_mem hmem]
      omega
    have hdependency := (h.known name dependency hafter).1
    exact ih (pool.erase name) hdependency hleft hlength (hleft dependency .refl)

/-! ## Resolution in an accepted configuration -/

section Resolvable

variable (h : cfg.toSections.Resolvable)
include h

variable (cpus) in
/-- Every project of the configuration is resolved. -/
theorem exists_resolve (hname : name ∈ cfg.projects.names) :
    ∃ tree, resolve cfg cpus name = .ok tree := by
  refine exists_resolveWithin h cfg.projects.names hname ?_ ?_
  · exact fun x hreach => h.known.mem_names_of_reaches hname hreach
  · rw [ProjectTable.names, List.length_map, ProjectTable.size]

/-- The bound on the depth is not felt: resolution is the recursion without it. -/
theorem resolve_eq_resolveBy :
    resolve cfg cpus name = resolveBy cfg cpus (resolve cfg cpus) name := by
  by_cases hname : name ∈ cfg.projects.names
  · obtain ⟨tree, htree⟩ := exists_resolve cpus h hname
    rw [htree]
    symm
    rw [resolveBy_eq_ok_iff fun x d => name_of_resolve]
    simp only [resolve] at htree ⊢
    generalize cfg.projects.size = depth at htree ⊢
    cases depth with
    | zero => exact absurd htree resolveWithin_zero_ne_ok
    | succ depth =>
      obtain ⟨hroot, hshows, hdependencies⟩ := resolveWithin_succ_eq_ok_iff.mp htree
      refine ⟨hroot, hshows, fun d hd => ?_⟩
      -- What was found with one level less is found with all of them.
      exact resolveWithin_mono depth.le_succ (hdependencies d hd)
  · rw [resolveBy_of_unknown hname, resolve]
    exact resolveWithin_of_unknown hname

/-- A project is resolved to a node with resolved projects below it. -/
theorem resolve_eq_ok_iff : resolve cfg cpus name = .ok tree ↔
    tree.name = name ∧ tree.Shows cfg cpus ∧
      ∀ d ∈ tree.dependencies, resolve cfg cpus d.name = .ok d := by
  rw [resolve_eq_resolveBy h]
  exact resolveBy_eq_ok_iff fun x d => name_of_resolve

/-- There is one recursion only. -/
theorem eq_resolve_of_forall (hf : ∀ x, f x = resolveBy cfg cpus f x) : f = resolve cfg cpus := by
  funext name
  induction name using h.wellFounded.induction with
  | _ name ih =>
    rw [hf, resolve_eq_resolveBy h]
    exact resolveBy_congr ih

end Resolvable

/-! ## Trees -/

/-- One tree stands directly below another. -/
def DependsOn (p d : Project) : Prop := d ∈ p.dependencies

/-- A tree has a node, which may be its root. -/
def Contains (p node : Project) : Prop := ReflTransGen DependsOn p node

/-- A tree shows all that its root comes after: each node unfolds its project, no way down meets a
project twice, and the projects that are met are those that can be reached. -/
structure Unfolding (cfg : Config) (cpus : Nat) (root : String) (tree : Project) : Prop where
  name : tree.name = root
  nodes : ∀ node, tree.Contains node → node.Shows cfg cpus
  nodup : ∀ below, (tree :: below).IsChain DependsOn → ((tree :: below).map (·.name)).Nodup
  depth : ∀ below, (tree :: below).IsChain DependsOn → (tree :: below).length ≤ cfg.projects.size
  names : ∀ x, (∃ node, tree.Contains node ∧ node.name = x) ↔
    ReflTransGen cfg.projects.ComesAfter root x

theorem Shows.comesAfter_iff (h : node.Shows cfg cpus) {x : String} :
    cfg.projects.ComesAfter node.name x ↔ ∃ d, node.DependsOn d ∧ d.name = x := by
  unfold ProjectTable.ComesAfter DependsOn
  rw [h.configured]
  simp only [Option.some.injEq, exists_eq_left', ← h.dependencies, List.mem_map]

section Resolvable

variable (h : cfg.toSections.Resolvable)
include h

/-- What is below a resolved tree is resolved as well. -/
theorem resolve_of_contains (htree : resolve cfg cpus tree.name = .ok tree)
    (hnode : tree.Contains node) : resolve cfg cpus node.name = .ok node := by
  induction hnode with
  | refl => exact htree
  | tail _ hbelow ih => exact ((resolve_eq_ok_iff h).mp ih).2.2 _ hbelow

theorem isChain_names (htree : resolve cfg cpus tree.name = .ok tree) {below : List Project}
    (hway : (tree :: below).IsChain DependsOn) :
    ((tree :: below).map (·.name)).IsChain cfg.projects.ComesAfter := by
  induction below generalizing tree with
  | nil => exact .singleton _
  | cons d rest ih =>
    obtain ⟨hbelow, hrest⟩ := List.isChain_cons_cons.mp hway
    obtain ⟨-, hshows, hdependencies⟩ := (resolve_eq_ok_iff h).mp htree
    rw [List.map_cons, List.map_cons, List.isChain_cons_cons]
    exact ⟨hshows.comesAfter_iff.mpr ⟨d, hbelow, rfl⟩, ih (hdependencies d hbelow) hrest⟩

/-- The names in a resolved tree are those that its root comes after, directly or through others. -/
theorem exists_contains_iff (htree : resolve cfg cpus tree.name = .ok tree) {x : String} :
    (∃ node, tree.Contains node ∧ node.name = x) ↔
      ReflTransGen cfg.projects.ComesAfter tree.name x := by
  have hshows {node : Project} (hnode : tree.Contains node) : node.Shows cfg cpus :=
    ((resolve_eq_ok_iff h).mp (resolve_of_contains h htree hnode)).2.1
  constructor
  · rintro ⟨node, hnode, rfl⟩
    induction hnode with
    | refl => exact .refl
    | tail hnode hbelow ih => exact ih.tail ((hshows hnode).comesAfter_iff.mpr ⟨_, hbelow, rfl⟩)
  · intro hreach
    induction hreach with
    | refl => exact ⟨tree, .refl, rfl⟩
    | tail _ hafter ih =>
      obtain ⟨node, hnode, rfl⟩ := ih
      obtain ⟨d, hbelow, hd⟩ := (hshows hnode).comesAfter_iff.mp hafter
      exact ⟨d, hnode.tail hbelow, hd⟩

theorem unfolding_of_resolve (htree : resolve cfg cpus name = .ok tree) :
    tree.Unfolding cfg cpus name := by
  obtain rfl := name_of_resolve htree
  have hacyclic := ProjectTable.acyclic_of_wellFounded h.wellFounded
  refine ⟨rfl, fun node hnode => ?_, fun below hway => ?_, fun below hway => ?_, fun x => ?_⟩
  · exact ((resolve_eq_ok_iff h).mp (resolve_of_contains h htree hnode)).2.1
  · exact hacyclic.nodup_of_isChain (isChain_names h htree hway)
  · have hroot := ((resolve_eq_ok_iff h).mp htree).2.1.configured
    have hname : tree.name ∈ cfg.projects.names := ProjectTable.mem_names_iff.mpr ⟨_, hroot⟩
    have hle := h.known.length_le_of_isChain hacyclic hname (isChain_names h htree hway)
    rwa [← List.map_cons, List.length_map] at hle
  · exact exists_contains_iff h htree

end Resolvable

end Project

/-! ## Supervisors -/

namespace Supervisor

variable {cfg : Config} {cpus : Nat}

/-- A daemon is the one of a section: its own settings, with its project resolved. -/
def IsDaemonOf (cfg : Config) (cpus : Nat) (entry : String × DaemonSpec) (d : Daemon) : Prop :=
  ∃ tree, Project.resolve cfg cpus entry.2.project = .ok tree ∧
    d = Daemon.ofSpec entry.1 entry.2 tree cfg.stopPolicy

theorem daemonOf_eq_ok_iff {entry : String × DaemonSpec} {d : Daemon} :
    daemonOf cfg cpus entry = .ok d ↔ IsDaemonOf cfg cpus entry d := by
  unfold daemonOf IsDaemonOf
  rw [bind_eq_ok_iff]
  refine exists_congr fun tree => and_congr_right fun _ => ?_
  constructor
  · exact fun h => (Except.ok.inj h).symm
  · exact fun h => congrArg Except.ok h.symm

variable (cpus) in
/-- A supervisor can be made of every accepted configuration, with its daemons as they are declared.
-/
theorem exists_ofConfig (h : cfg.toSections.Resolvable) :
    ∃ s, ofConfig cfg cpus = .ok s ∧
      List.Forall₂ (IsDaemonOf cfg cpus) cfg.daemons.entries s.daemons := by
  have hdaemons : ∀ entry ∈ cfg.daemons.entries, ∃ d, daemonOf cfg cpus entry = .ok d := by
    intro entry hentry
    obtain ⟨tree, htree⟩ := Project.exists_resolve cpus h (h.project entry hentry)
    exact ⟨_, daemonOf_eq_ok_iff.mpr ⟨tree, htree, rfl⟩⟩
  obtain ⟨ds, hds⟩ := exists_mapM_eq_ok_iff.mpr hdaemons
  refine ⟨_, bind_eq_ok_iff.mpr ⟨ds, hds, rfl⟩, ?_⟩
  exact (mapM_eq_ok_iff.mp hds).imp fun entry d => daemonOf_eq_ok_iff.mp

theorem names_of_areDaemonsOf {entries : List (String × DaemonSpec)} {ds : List Daemon}
    (h : List.Forall₂ (IsDaemonOf cfg cpus) entries ds) : ds.map (·.name) = entries.map (·.1) := by
  induction h with
  | nil => rfl
  | cons hd _ ih =>
    obtain ⟨tree, -, rfl⟩ := hd
    rw [List.map_cons, List.map_cons, ih]
    rfl

end Supervisor

/-! ## Accepted configurations -/

namespace Config

/-- In a configuration that was accepted every project is resolved, to the unfolding of what it
comes after, and other names are unknown.  Resolution is the recursion without a bound on its depth,
whose calls must end.  A supervisor can be made, with one daemon for each section in the order of
their declaration. -/
theorem resolution_unfolds_after {s : Sections} {cfg : Config} (h : s.validate = .ok cfg)
    (cpus : Nat) :
    (WellFounded (fun dependency name => cfg.projects.ComesAfter name dependency) ∧
      ∀ f, (∀ name, f name = Project.resolveBy cfg cpus f name) ↔ f = Project.resolve cfg cpus) ∧
    (∀ name ∈ cfg.projects.names, ∃ tree, Project.resolve cfg cpus name = .ok tree ∧
      tree.Unfolding cfg cpus name) ∧
    (∀ name, Project.resolve cfg cpus name = .error (.invalidConfig (.noSuchProject name)) ↔
      name ∉ cfg.projects.names) ∧
    ∃ sup, Supervisor.ofConfig cfg cpus = .ok sup ∧
      List.Forall₂ (Supervisor.IsDaemonOf cfg cpus) cfg.daemons.entries sup.daemons ∧
      sup.daemons.map (·.name) = cfg.daemons.names := by
  have hresolvable := Sections.resolvable_of_validate h
  refine ⟨⟨hresolvable.wellFounded, fun f => ?_⟩, fun name hname => ?_, fun name => ?_, ?_⟩
  · constructor
    · exact Project.eq_resolve_of_forall hresolvable
    · rintro rfl name
      exact Project.resolve_eq_resolveBy hresolvable
  · obtain ⟨tree, htree⟩ := Project.exists_resolve cpus hresolvable hname
    exact ⟨tree, htree, Project.unfolding_of_resolve hresolvable htree⟩
  · constructor
    · intro herror hname
      obtain ⟨tree, htree⟩ := Project.exists_resolve cpus hresolvable hname
      rw [htree] at herror
      cases herror
    · exact Project.resolveWithin_of_unknown
  · obtain ⟨sup, hsup, hdaemons⟩ := Supervisor.exists_ofConfig cpus hresolvable
    exact ⟨sup, hsup, hdaemons, Supervisor.names_of_areDaemonsOf hdaemons⟩

/-- The application is resolved to a tree with a library standing below it twice. -/
theorem resolution_unfolds_after_diamond :
    Sections.diamondSections.validate = .ok Sections.diamondConfig ∧
    ∃ tree, Project.resolve Sections.diamondConfig 4 "app" = .ok tree ∧
      tree.Unfolding Sections.diamondConfig 4 "app" ∧
      tree.dependencies.map (·.name) = ["left", "right", "left"] := by
  have hspec := resolution_unfolds_after Sections.validate_diamond 4
  obtain ⟨tree, htree, hunfolding⟩ := hspec.2.1 "app" (by decide)
  refine ⟨Sections.validate_diamond, tree, htree, hunfolding, ?_⟩
  have hroot := hunfolding.nodes tree .refl
  have hconfigured := hroot.configured
  rw [hunfolding.name] at hconfigured
  rw [hroot.dependencies, ← Option.some.inj hconfigured]

end Config

end DaemonKeeper
