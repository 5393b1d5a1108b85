import DaemonKeeper.Config.Validate
import DaemonKeeper.Proofs.CycleSearch
import DaemonKeeper.Proofs.Entries
import Mathlib.Order.WellFounded
set_option autoImplicit false

/-!
# Projects by name, and which comes after which

A table of projects that was read has each name once, in order.  Over such a table the two views
that the search for a cycle has of the projects agree: it finds nothing if and only if no project
comes after itself on any way round.
-/

namespace DaemonKeeper

namespace ProjectTable

open Relation

variable {t : ProjectTable} {name dependency : String} {p : ProjectSpec}

/-! ## Tables in order -/

/-- The names are in order, so none is there twice. -/
def Ordered (t : ProjectTable) : Prop := t.entries.Pairwise fun a b => a.1 < b.1

theorem ordered_empty : empty.Ordered := List.Pairwise.nil

theorem mem_insertSorted {entry : String × ProjectSpec} {entries : List (String × ProjectSpec)}
    (h : entry ∈ insertSorted name p entries) : entry = (name, p) ∨ entry ∈ entries := by
  induction entries with
  | nil => exact .inl (List.mem_singleton.mp h)
  | cons first rest ih =>
    simp only [insertSorted] at h
    split at h
    · exact List.mem_cons.mp h
    · split at h
      · rcases List.mem_cons.mp h with rfl | hrest
        · exact .inl rfl
        · exact .inr (List.mem_cons_of_mem first hrest)
      · rcases List.mem_cons.mp h with rfl | hrest
        · exact .inr List.mem_cons_self
        · exact (ih hrest).imp_right (List.mem_cons_of_mem first)

/-- A new entry goes where its name belongs. -/
theorem Ordered.insert (h : t.Ordered) (name : String) (p : ProjectSpec) :
    (t.insert name p).Ordered := by
  unfold Ordered at h
  unfold Ordered ProjectTable.insert
  generalize t.entries = entries at h
  induction entries with
  | nil => exact List.pairwise_singleton _ _
  | cons first rest ih =>
    obtain ⟨hfirst, hrest⟩ := List.pairwise_cons.mp h
    simp only [insertSorted]
    split
    · rename_i hless
      refine List.pairwise_cons.mpr ⟨fun entry hentry => ?_, h⟩
      rcases List.mem_cons.mp hentry with rfl | hentry
      · exact hless
      · exact String.lt_trans hless (hfirst entry hentry)
    · rename_i hnotless
      split
      · rename_i heq
        rw [← heq] at hfirst
        exact List.pairwise_cons.mpr ⟨hfirst, hrest⟩
      · rename_i hne
        have hless : first.1 < name := by grind
        refine List.pairwise_cons.mpr ⟨fun entry hentry => ?_, ih hrest⟩
        rcases mem_insertSorted hentry with rfl | hentry
        · exact hless
        · exact hfirst entry hentry

/-- So do several. -/
theorem Ordered.foldl_insert (h : t.Ordered) (entries : List (String × ProjectSpec)) :
    (entries.foldl (fun t entry => t.insert entry.1 entry.2) t).Ordered := by
  induction entries generalizing t with
  | nil => exact h
  | cons first rest ih => exact ih (h.insert first.1 first.2)

/-- Entries of two names are put in their places in either order. -/
theorem insertSorted_comm {other : String} (hne : name ≠ other) (p q : ProjectSpec)
    (entries : List (String × ProjectSpec)) :
    insertSorted other q (insertSorted name p entries) =
      insertSorted name p (insertSorted other q entries) := by
  induction entries with
  | nil =>
    simp only [insertSorted]
    split_ifs <;> grind
  | cons first rest ih =>
    simp only [insertSorted]
    split_ifs <;> simp only [insertSorted] <;> split_ifs <;> grind

/-- The table that comes of adding projects in turn. -/
def ofList (specs : List (String × ProjectSpec)) : ProjectTable :=
  specs.foldl (fun t e => t.insert e.1 e.2) .empty

/-- Under distinct names the order in which they are added makes no difference. -/
theorem ofList_perm {specs specs' : List (String × ProjectSpec)} (h : specs'.Perm specs)
    (hnodup : (specs'.map (·.1)).Nodup) : ofList specs' = ofList specs := by
  refine h.foldl_eq' (fun e he e' he' t => ?_) _
  by_cases heq : e.1 = e'.1
  · rw [List.inj_on_of_nodup_map hnodup he he' heq]
  · exact congrArg ProjectTable.mk (insertSorted_comm heq e.2 e'.2 t.entries)

/-! ## Looking up -/

/-- What is found under a name is an entry of that name. -/
theorem mem_entries_of_get? (h : t.get? name = some p) : (name, p) ∈ t.entries := mem_of_lookup h

/-- In a table in order no name is there twice. -/
theorem Ordered.nodup_names (h : t.Ordered) : t.names.Nodup :=
  List.pairwise_map.mpr (h.imp String.ne_of_lt)

/-- So every entry is found. -/
theorem Ordered.get?_eq_some_iff (h : t.Ordered) : t.get? name = some p ↔ (name, p) ∈ t.entries :=
  lookup_eq_some_iff_mem h.nodup_names

/-- Something is found under the names of the table, and under no others. -/
theorem mem_names_iff : name ∈ t.names ↔ ∃ p, t.get? name = some p := mem_map_fst_iff

/-- Nothing is found under other names. -/
theorem get?_eq_none_iff : t.get? name = none ↔ name ∉ t.names := by
  rw [mem_names_iff, Option.eq_none_iff_forall_ne_some, not_exists]

theorem contains_iff : t.contains name = true ↔ name ∈ t.names := by
  rw [contains, Option.isSome_iff_exists, mem_names_iff]

/-! ## Which project comes after which -/

/-- A project names another among those it comes after. -/
def ComesAfter (t : ProjectTable) (name dependency : String) : Prop :=
  ∃ p, t.get? name = some p ∧ dependency ∈ p.after

/-- A project that comes after another is in the table. -/
theorem ComesAfter.mem_names (h : t.ComesAfter name dependency) : name ∈ t.names := by
  obtain ⟨p, hp, -⟩ := h
  exact mem_names_iff.mpr ⟨p, hp⟩

/-- No project comes after itself, directly or through others. -/
def Acyclic (t : ProjectTable) : Prop := ∀ name, ¬ TransGen t.ComesAfter name name

/-- Every project stands higher than those it comes after. -/
def Ranked (t : ProjectTable) (rank : String → Nat) : Prop :=
  ∀ name dependency, t.ComesAfter name dependency → rank dependency < rank name

theorem ranked_of_entries {rank : String → Nat}
    (h : ∀ entry ∈ t.entries, ∀ dependency ∈ entry.2.after, rank dependency < rank entry.1) :
    t.Ranked rank := by
  rintro name dependency ⟨p, hp, hafter⟩
  exact h (name, p) (mem_entries_of_get? hp) dependency hafter

/-- Then going from a project to those it comes after must end. -/
theorem Ranked.wellFounded {rank : String → Nat} (h : t.Ranked rank) :
    WellFounded fun dependency name => t.ComesAfter name dependency :=
  Subrelation.wf (h _ _) (measure rank).wf

/-- Hence no project comes after itself. -/
theorem acyclic_of_wellFounded
    (h : WellFounded fun dependency name => t.ComesAfter name dependency) : t.Acyclic := by
  intro name hcycle
  exact h.transGen.irrefl.irrefl name hcycle.swap

/-- Then a way from project to project meets each at most once. -/
theorem Acyclic.nodup_of_isChain (h : t.Acyclic) {way : List String}
    (hway : way.IsChain t.ComesAfter) : way.Nodup := by
  have hpairs := (hway.imp fun _ _ => TransGen.single).pairwise
  refine hpairs.imp fun {name dependency} hreach heq => ?_
  rw [heq] at hreach
  exact h dependency hreach

/-- Every project comes after others of the table only. -/
def Known (t : ProjectTable) : Prop :=
  ∀ name dependency, t.ComesAfter name dependency → dependency ∈ t.names ∧ dependency ≠ name

/-- Then whatever is reached from a project is in the table. -/
theorem Known.mem_names_of_reaches (h : t.Known) (hname : name ∈ t.names)
    (hreach : ReflTransGen t.ComesAfter name dependency) : dependency ∈ t.names := by
  cases hreach with
  | refl => exact hname
  | tail _ hafter => exact (h _ _ hafter).1

theorem Known.subset_of_isChain (h : t.Known) {way : List String} (hname : name ∈ t.names)
    (hway : (name :: way).IsChain t.ComesAfter) : name :: way ⊆ t.names := by
  induction way generalizing name with
  | nil => exact List.cons_subset.mpr ⟨hname, List.nil_subset _⟩
  | cons dependency rest ih =>
    obtain ⟨hafter, hrest⟩ := List.isChain_cons_cons.mp hway
    exact List.cons_subset.mpr ⟨hname, ih (h _ _ hafter).1 hrest⟩

/-- Then a way that meets each project at most once is no longer than there are projects. -/
theorem Known.length_le_of_isChain (h : t.Known) (hacyclic : t.Acyclic) {way : List String}
    (hname : name ∈ t.names) (hway : (name :: way).IsChain t.ComesAfter) :
    (name :: way).length ≤ t.size := by
  have hle := (hacyclic.nodup_of_isChain hway).length_le_of_subset (h.subset_of_isChain hname hway)
  rwa [names, List.length_map] at hle

theorem mem_predecessors_iff :
    dependency ∈ t.graph.predecessors name ↔ t.ComesAfter name dependency := by
  simp only [graph, ComesAfter]
  split
  · rename_i p hp
    rw [List.mem_eraseDups, hp]
    constructor
    · exact fun h => ⟨p, rfl, h⟩
    · rintro ⟨q, hq, h⟩
      rwa [Option.some.inj hq]
  · rename_i hnone
    rw [hnone]
    simp

/-- In a table in order the edges are the same from both ends. -/
theorem Ordered.mem_successors_iff (h : t.Ordered) :
    name ∈ t.graph.successors dependency ↔ t.ComesAfter name dependency := by
  simp only [graph, ComesAfter, List.mem_map, List.mem_filter, decide_eq_true_eq]
  constructor
  · rintro ⟨⟨_, p⟩, ⟨hmem, hafter⟩, rfl⟩
    exact ⟨p, h.get?_eq_some_iff.mpr hmem, hafter⟩
  · rintro ⟨p, hp, hafter⟩
    exact ⟨(name, p), ⟨h.get?_eq_some_iff.mp hp, hafter⟩, rfl⟩

/-- The edges lead from project to project. -/
theorem Known.closed (h : t.Known) : t.graph.Closed where
  successors a b hb := by
    obtain ⟨entry, hentry, rfl⟩ := List.mem_map.mp hb
    exact List.mem_map_of_mem (List.mem_filter.mp hentry).1
  predecessors b a ha := by
    have hafter := mem_predecessors_iff.mp ha
    exact ⟨(h b a hafter).1, hafter.mem_names⟩

/-- If no cycle is reported, the order of finishing ranks the projects. -/
theorem Known.ranked_of_cycle?_eq_none (h : t.Known) (hnone : t.graph.cycle? = none) :
    t.Ranked t.graph.finishOrder.idxOf := by
  have hirrefl : ∀ a, a ∉ t.graph.predecessors a :=
    fun a ha => (h a a (mem_predecessors_iff.mp ha)).2 rfl
  intro name dependency hafter
  exact Graph.idxOf_lt_of_cycle?_eq_none h.closed hirrefl hnone (mem_predecessors_iff.mpr hafter)

/-- A project that is reported comes after itself. -/
theorem Known.transGen_of_cycle?_eq_some (h : t.Known) (hordered : t.Ordered)
    (hsome : t.graph.cycle? = some name) : TransGen t.ComesAfter name name := by
  have hmirror : ∀ a b, a ∈ t.graph.predecessors b → b ∈ t.graph.successors a :=
    fun a b hab => hordered.mem_successors_iff.mpr (mem_predecessors_iff.mp hab)
  have hcycle := Graph.transGen_of_cycle?_eq_some h.closed hmirror hsome
  exact hcycle.swap.lift id fun a b hab => hordered.mem_successors_iff.mp hab

/-- If the projects can be ranked so that each is above those it comes after, no cycle is reported. -/
theorem Ordered.cycle?_eq_none (hordered : t.Ordered) (rank : String → Nat)
    (h : ∀ entry ∈ t.entries, ∀ dependency ∈ entry.2.after,
      dependency ∈ t.names ∧ rank dependency < rank entry.1) : t.graph.cycle? = none := by
  have hranked : t.Ranked rank := ranked_of_entries fun entry hentry dependency hdependency =>
    (h entry hentry dependency hdependency).2
  have hknown : t.Known := by
    rintro name dependency ⟨p, hp, hafter⟩
    obtain ⟨hname, hlt⟩ := h (name, p) (mem_entries_of_get? hp) dependency hafter
    refine ⟨hname, ?_⟩
    rintro rfl
    exact Nat.lt_irrefl _ hlt
  cases hsome : t.graph.cycle? with
  | none => rfl
  | some name =>
    have hself := hknown.transGen_of_cycle?_eq_some hordered hsome
    exact absurd hself (acyclic_of_wellFounded hranked.wellFounded name)

end ProjectTable

/-! ## Tables that were read -/

/-- The sections of a map are read one by one and added in turn. -/
theorem Config.readProjects_eq_ok_iff {sections : Toml.Table} {t : ProjectTable} :
    readProjects (.table sections) = .ok t ↔
      ∃ specs, ReadFrom (fun _ => readProject) sections specs ∧ t = ProjectTable.ofList specs := by
  have hmap : mapForm .document (.table sections) = .ok sections := rfl
  have hspecs : ∀ specs, (sections.mapM fun x => do return (x.1, ← readProject x.2)) = .ok specs ↔
      ReadFrom (fun _ => readProject) sections specs :=
    fun _ => mapM_eq_ok_iff_readFrom (f := fun _ => readProject)
  unfold readProjects
  simp only [hmap, bind_eq_ok_iff, ← hspecs]
  constructor
  · rintro ⟨entries, hentries, specs, hread, h⟩
    obtain rfl := Except.ok.inj hentries
    exact ⟨specs, hread, (Except.ok.inj h).symm⟩
  · rintro ⟨specs, hread, rfl⟩
    exact ⟨sections, rfl, specs, hread, rfl⟩

/-- The projects of a map are put in order. -/
theorem Config.ordered_of_readProjects {v : Toml.Value} {t : ProjectTable}
    (h : Config.readProjects v = .ok t) : t.Ordered := by
  unfold Config.readProjects at h
  obtain ⟨entries, -, h⟩ := bind_eq_ok_iff.mp h
  obtain ⟨specs, -, h⟩ := bind_eq_ok_iff.mp h
  obtain rfl := Except.ok.inj h
  exact ProjectTable.ordered_empty.foldl_insert specs

/-- So is the whole of a document. -/
theorem Config.ordered_of_readSections {document : Toml.Table} {s : Sections}
    (h : Config.readSections document = .ok s) : s.projects.Ordered := by
  unfold Config.readSections at h
  obtain ⟨-, -, h⟩ := bind_eq_ok_iff.mp h
  dsimp only at h
  obtain ⟨settings, -, h⟩ := bind_eq_ok_iff.mp h
  obtain ⟨coordinator, -, h⟩ := bind_eq_ok_iff.mp h
  obtain ⟨projects, hprojects, h⟩ := bind_eq_ok_iff.mp h
  obtain ⟨daemons, -, h⟩ := bind_eq_ok_iff.mp h
  obtain rfl := Except.ok.inj h
  show (projects.getD .empty).Ordered
  cases projects with
  | none => exact ProjectTable.ordered_empty
  | some t =>
    unfold Given.optional at hprojects
    cases hsection : document.lookup "project" with
    | none =>
      rw [hsection] at hprojects
      cases hprojects
    | some v =>
      rw [hsection, Option.mapM_some] at hprojects
      obtain ⟨t', ht', hsome⟩ := bind_eq_ok_iff.mp hprojects
      obtain rfl := Option.some.inj (Except.ok.inj hsome)
      exact Config.ordered_of_readProjects ht'

/-- In every file that can be read the projects are in order. -/
theorem Sections.ordered_of_ofBytes {bytes : List UInt8} {s : Sections}
    (h : Sections.ofBytes bytes = .ok s) : s.projects.Ordered := by
  unfold Sections.ofBytes at h
  split at h
  · cases h
  unfold Sections.ofText at h
  split at h
  · cases h
  rename_i document _
  cases hsections : Config.readSections document with
  | error cause =>
    rw [hsections] at h
    cases h
  | ok s' =>
    rw [hsections] at h
    obtain rfl := Except.ok.inj h
    exact Config.ordered_of_readSections hsections

end DaemonKeeper
