import DaemonKeeper.Proofs.Resolution
import Mathlib.Data.Set.Card
set_option autoImplicit false

/-!
# The nodes of a tree, and the walks that lead to them

A tree is gone through with each node before those below it, or with each node after them.  Both
orders have the same nodes.  In the tree of a project a node stands for a walk: the choices, at each
project, of one of those it comes after.  A project is met as often as there are walks to it.
-/

namespace DaemonKeeper

namespace Project

/-! ## Two orders -/

mutual
/-- The nodes of a tree, each before those below it. -/
def rootFirst (p : Project) : List Project :=
  match p with
  | ⟨name, spec, repository, dependencies, privilegePrefix, jobs⟩ =>
    ⟨name, spec, repository, dependencies, privilegePrefix, jobs⟩ :: allRootFirst dependencies

/-- The nodes of trees in order, each before those below it. -/
def allRootFirst (ps : List Project) : List Project :=
  match ps with
  | [] => []
  | p :: rest => p.rootFirst ++ allRootFirst rest
end

mutual
/-- The nodes of a tree, each after those below it. -/
def dependenciesFirst (p : Project) : List Project :=
  match p with
  | ⟨name, spec, repository, dependencies, privilegePrefix, jobs⟩ =>
    allDependenciesFirst dependencies
      ++ [⟨name, spec, repository, dependencies, privilegePrefix, jobs⟩]

/-- The nodes of trees in order, each after those below it. -/
def allDependenciesFirst (ps : List Project) : List Project :=
  match ps with
  | [] => []
  | p :: rest => p.dependenciesFirst ++ allDependenciesFirst rest
end

theorem allDependenciesFirst_eq_flatMap (ps : List Project) :
    allDependenciesFirst ps = ps.flatMap dependenciesFirst := by
  induction ps with
  | nil =>
    unfold allDependenciesFirst
    rfl
  | cons p rest ih =>
    unfold allDependenciesFirst
    rw [ih, List.flatMap_cons]

/-- The nodes of the dependencies come in order, and before the node itself. -/
theorem dependenciesFirst_eq (p : Project) :
    p.dependenciesFirst = p.dependencies.flatMap dependenciesFirst ++ [p] := by
  rw [← allDependenciesFirst_eq_flatMap]
  cases p
  unfold dependenciesFirst
  rfl

mutual
/-- The two orders have the same nodes, equally often. -/
theorem rootFirst_perm_dependenciesFirst (p : Project) : p.rootFirst.Perm p.dependenciesFirst :=
  match p with
  | ⟨_, _, _, dependencies, _, _⟩ => by
    unfold rootFirst dependenciesFirst
    refine .trans ?_ List.perm_append_comm
    exact (allRootFirst_perm_allDependenciesFirst dependencies).cons _

theorem allRootFirst_perm_allDependenciesFirst (ps : List Project) :
    (allRootFirst ps).Perm (allDependenciesFirst ps) :=
  match ps with
  | [] => by
    unfold allRootFirst allDependenciesFirst
    exact .nil
  | p :: rest => by
    unfold allRootFirst allDependenciesFirst
    exact (rootFirst_perm_dependenciesFirst p).append (allRootFirst_perm_allDependenciesFirst rest)
end

end Project

/-! ## Walks -/

namespace ProjectTable

variable {t : ProjectTable} {goal start : String} {spec : ProjectSpec} {names : List String}
variable {w : List Nat}

/-- A walk from a project to a goal says, at each project on the way, which of the names that it
comes after is taken next.  A name that is given twice can be taken in two ways. -/
inductive Walk (t : ProjectTable) (goal : String) : String → List Nat → Prop where
  | here : Walk t goal goal []
  | along {start next : String} {spec : ProjectSpec} {i : Nat} {rest : List Nat} :
    t.get? start = some spec → spec.after[i]? = some next → Walk t goal next rest →
    Walk t goal start (i :: rest)

/-- The walks that begin with one of some names. -/
def walksInto (t : ProjectTable) (goal : String) (names : List String) : Set (List Nat) :=
  {w | ∃ i next rest, w = i :: rest ∧ names[i]? = some next ∧ t.Walk goal next rest}

theorem walk_iff (hspec : t.get? start = some spec) :
    t.Walk goal start w ↔ (w = [] ∧ start = goal) ∨ w ∈ t.walksInto goal spec.after := by
  constructor
  · intro h
    cases h with
    | here => exact .inl ⟨rfl, rfl⟩
    | along hstart hnext hrest =>
      obtain rfl := Option.some.inj (hspec.symm.trans hstart)
      exact .inr ⟨_, _, _, rfl, hnext, hrest⟩
  · rintro (⟨rfl, rfl⟩ | ⟨i, next, rest, rfl, hnext, hrest⟩)
    · exact .here
    · exact .along hspec hnext hrest

theorem walksInto_nil : t.walksInto goal [] = ∅ := by
  refine Set.eq_empty_of_forall_notMem ?_
  rintro _ ⟨i, next, rest, rfl, hnext, -⟩
  cases hnext

/-- The same choice where one more name stands in front. -/
def later : List Nat → List Nat
  | [] => []
  | i :: rest => (i + 1) :: rest

theorem later_injective : Function.Injective later := by
  intro v w h
  cases v <;> cases w <;> simp_all [later]

theorem walksInto_cons (next : String) :
    t.walksInto goal (next :: names) =
      (0 :: ·) '' {w | t.Walk goal next w} ∪ later '' t.walksInto goal names := by
  ext w
  constructor
  · rintro ⟨i, d, rest, rfl, hd, hrest⟩
    cases i with
    | zero =>
      obtain rfl := Option.some.inj hd
      exact .inl ⟨rest, hrest, rfl⟩
    | succ i => exact .inr ⟨i :: rest, ⟨i, d, rest, rfl, hd, hrest⟩, rfl⟩
  · rintro (⟨rest, hrest, rfl⟩ | ⟨-, ⟨i, d, rest, rfl, hd, hrest⟩, rfl⟩)
    · exact ⟨0, next, rest, rfl, rfl, hrest⟩
    · exact ⟨i + 1, d, rest, rfl, hd, hrest⟩

/-- Walks that begin differently are different. -/
theorem encard_walksInto_cons (next : String) :
    (t.walksInto goal (next :: names)).encard =
      {w | t.Walk goal next w}.encard + (t.walksInto goal names).encard := by
  rw [walksInto_cons, Set.encard_union_eq, (List.cons_injective).encard_image,
    later_injective.encard_image]
  rw [Set.disjoint_left]
  rintro _ ⟨rest, -, rfl⟩ ⟨-, ⟨i, d, rest', rfl, -, -⟩, h⟩
  cases h

theorem encard_walk (hspec : t.get? start = some spec) :
    {w | t.Walk goal start w}.encard =
      (t.walksInto goal spec.after).encard + if start = goal then 1 else 0 := by
  have hunion : {w | t.Walk goal start w} =
      t.walksInto goal spec.after ∪ {w | w = [] ∧ start = goal} := by
    ext w
    exact (walk_iff hspec).trans or_comm
  rw [hunion, Set.encard_union_eq]
  · congr 1
    split
    · rename_i heq
      have hempty : {w : List Nat | w = [] ∧ start = goal} = {[]} := by
        ext w
        exact and_iff_left heq
      rw [hempty, Set.encard_singleton]
    · rename_i hne
      have hnone : {w : List Nat | w = [] ∧ start = goal} = ∅ :=
        Set.eq_empty_of_forall_notMem fun w hw => hne hw.2
      rw [hnone, Set.encard_empty]
  · rw [Set.disjoint_left]
    rintro _ ⟨i, next, rest, rfl, -, -⟩ ⟨h, -⟩
    cases h

end ProjectTable

/-! ## Nodes and walks -/

namespace Project

variable {cfg : Config} {cpus : Nat} {goal : String}

mutual
theorem contains_of_mem_rootFirst (p : Project) {node : Project} (h : node ∈ p.rootFirst) :
    p.Contains node :=
  match p with
  | ⟨_, _, _, dependencies, _, _⟩ => by
    unfold rootFirst at h
    rcases List.mem_cons.mp h with rfl | hbelow
    · exact .refl
    · obtain ⟨d, hd, hnode⟩ := exists_contains_of_mem_allRootFirst dependencies hbelow
      exact .head hd hnode

theorem exists_contains_of_mem_allRootFirst (ps : List Project) {node : Project}
    (h : node ∈ allRootFirst ps) : ∃ p ∈ ps, p.Contains node :=
  match ps with
  | [] => by
    unfold allRootFirst at h
    cases h
  | p :: rest => by
    unfold allRootFirst at h
    rcases List.mem_append.mp h with hp | hrest
    · exact ⟨p, List.mem_cons_self, contains_of_mem_rootFirst p hp⟩
    · obtain ⟨q, hq, hnode⟩ := exists_contains_of_mem_allRootFirst rest hrest
      exact ⟨q, List.mem_cons_of_mem p hq, hnode⟩
end

mutual
/-- In the tree of a project another is met as often as there are walks to it. -/
theorem encard_walk_eq_count (h : cfg.toSections.Resolvable) (p : Project)
    (hp : resolve cfg cpus p.name = .ok p) :
    {w | cfg.projects.Walk goal p.name w}.encard = (p.rootFirst.map (·.name)).count goal :=
  match p with
  | ⟨_, _, _, dependencies, _, _⟩ => by
    obtain ⟨-, hshows, hdependencies⟩ := (resolve_eq_ok_iff h).mp hp
    rw [ProjectTable.encard_walk hshows.configured, ← hshows.dependencies,
      encard_walksInto_eq_count h dependencies hdependencies]
    unfold rootFirst
    rw [List.map_cons, List.count_cons]
    simp only [beq_iff_eq, Nat.cast_add, Nat.cast_ite, Nat.cast_one, Nat.cast_zero]

/-- The same for the walks that begin with one of some trees. -/
theorem encard_walksInto_eq_count (h : cfg.toSections.Resolvable) (ps : List Project)
    (hps : ∀ p ∈ ps, resolve cfg cpus p.name = .ok p) :
    (cfg.projects.walksInto goal (ps.map (·.name))).encard =
      ((allRootFirst ps).map (·.name)).count goal :=
  match ps with
  | [] => by
    unfold allRootFirst
    rw [List.map_nil, ProjectTable.walksInto_nil, Set.encard_empty]
    rfl
  | p :: rest => by
    obtain ⟨hp, hrest⟩ := List.forall_mem_cons.mp hps
    unfold allRootFirst
    rw [List.map_cons, ProjectTable.encard_walksInto_cons, encard_walk_eq_count h p hp,
      encard_walksInto_eq_count h rest hrest, List.map_append, List.count_append, Nat.cast_add]
end

end Project

end DaemonKeeper
