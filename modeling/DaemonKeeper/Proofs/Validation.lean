import DaemonKeeper.Proofs.ProjectOrder
import DaemonKeeper.Proofs.Trimming
set_option autoImplicit false

/-!
# What validation accepts, and what it reports (SPEC §4.1)

The rules of a configuration form a list, in the order in which they are looked at.  Validation
succeeds if and only if all of them are kept, and otherwise reports the first that is broken.  Each
check decides a part of the list; checks in turn decide the parts one after the other.  The rule
that no project comes after itself is decided only where the rules before it are kept: it takes for
granted that every project that is named exists.
-/

namespace DaemonKeeper

/-! ## Rules -/

/-- A rule is kept or broken; a breach of it may be reported by certain faults. -/
structure Rule where
  Kept : Prop
  Blamed : Fault → Prop

namespace Rule

/-- A rule with one way to report a breach. -/
def of (kept : Prop) (cause : ConfigFault) : Rule := ⟨kept, (· = .invalidConfig cause)⟩

/-- What may be reported where the first broken rule of a list decides. -/
inductive FirstBroken (fault : Fault) : List Rule → Prop
  | here {r : Rule} {rest : List Rule} : ¬ r.Kept → r.Blamed fault → FirstBroken fault (r :: rest)
  | later {r : Rule} {rest : List Rule} :
    r.Kept → FirstBroken fault rest → FirstBroken fault (r :: rest)

variable {fault : Fault} {rules more : List Rule}

theorem FirstBroken.not_kept (h : FirstBroken fault rules) : ¬ ∀ r ∈ rules, r.Kept := by
  induction h with
  | here hbroken _ => exact fun hall => hbroken (hall _ List.mem_cons_self)
  | later _ _ ih => exact fun hall => ih fun r hr => hall r (List.mem_cons_of_mem _ hr)

theorem FirstBroken.append_right (h : FirstBroken fault rules) (more : List Rule) :
    FirstBroken fault (rules ++ more) := by
  induction h with
  | here hbroken hblamed => exact .here hbroken hblamed
  | later hkept _ ih => exact .later hkept ih

theorem FirstBroken.append_left (hkept : ∀ r ∈ rules, r.Kept) (h : FirstBroken fault more) :
    FirstBroken fault (rules ++ more) := by
  induction rules with
  | nil => exact h
  | cons r rest ih =>
    obtain ⟨hr, hrest⟩ := List.forall_mem_cons.mp hkept
    exact .later hr (ih hrest)

/-- A computation that succeeds with a right result if every rule is kept, and else ends in the
fault of the first that is broken. -/
inductive Decides {α : Type} (Right : α → Prop) (rules : List Rule) : Except Fault α → Prop
  | accepted {a : α} : (∀ r ∈ rules, r.Kept) → Right a → Decides Right rules (.ok a)
  | refused {fault : Fault} : FirstBroken fault rules → Decides Right rules (.error fault)

variable {α β : Type} {Right : α → Prop} {Right' : β → Prop}

/-- It succeeds if and only if every rule is kept. -/
theorem Decides.exists_ok_iff {x : Except Fault α} (h : Decides Right rules x) :
    (∃ a, x = .ok a) ↔ ∀ r ∈ rules, r.Kept := by
  cases h with
  | @accepted a hkept _ => exact ⟨fun _ => hkept, fun _ => ⟨a, rfl⟩⟩
  | refused hbroken =>
    constructor
    · rintro ⟨a, ha⟩
      cases ha
    · exact fun hkept => absurd hkept hbroken.not_kept

theorem Decides.right_of_ok {x : Except Fault α} {a : α} (h : Decides Right rules x)
    (ha : x = .ok a) : Right a := by
  subst ha
  cases h with
  | accepted _ hright => exact hright

theorem Decides.firstBroken_of_error {x : Except Fault α} (h : Decides Right rules x)
    (hfault : x = .error fault) : FirstBroken fault rules := by
  subst hfault
  cases h with
  | refused hbroken => exact hbroken

/-- Computations in turn decide their rules in turn.  The later one may rely on the earlier rules.
-/
theorem Decides.bind {x : Except Fault α} {f : α → Except Fault β}
    (hx : Decides Right rules x)
    (hf : ∀ a, Right a → (∀ r ∈ rules, r.Kept) → Decides Right' more (f a)) :
    Decides Right' (rules ++ more) (x >>= f) := by
  cases hx with
  | refused hbroken => exact .refused (hbroken.append_right more)
  | @accepted a hkept hright =>
    have hlater := hf a hright hkept
    show Decides Right' (rules ++ more) (f a)
    generalize f a = y at hlater
    cases hlater with
    | refused hbroken => exact .refused (hbroken.append_left hkept)
    | accepted hmore hright' =>
      refine .accepted (fun r hr => ?_) hright'
      rcases List.mem_append.mp hr with hr | hr
      · exact hkept r hr
      · exact hmore r hr

/-- A computation that decides one rule, with what follows it. -/
theorem Decides.bind_cons {r : Rule} {x : Except Fault α} {f : α → Except Fault β}
    (hx : Decides Right [r] x) (hf : ∀ a, Right a → r.Kept → Decides Right' more (f a)) :
    Decides Right' (r :: more) (x >>= f) :=
  hx.bind fun a hright hkept => hf a hright (hkept r List.mem_cons_self)

/-- A computation that decides nothing more. -/
theorem Decides.pure {a : α} (h : Right a) : Decides Right [] (.ok a) := .accepted nofun h

/-- A check that decides some rules. -/
abbrev DecidedBy (rules : List Rule) (check : Except Fault Unit) : Prop :=
  Decides (fun _ => True) rules check

/-- Two checks in turn. -/
theorem DecidedBy.andThen {x y : Except Fault Unit} (hx : DecidedBy rules x)
    (hy : DecidedBy more y) : DecidedBy (rules ++ more) (do x; y) :=
  hx.bind fun _ _ _ => hy

/-- A check for each member of a list decides the rules for each of them. -/
theorem DecidedBy.forM {γ : Type} {check : γ → Except Fault Unit} {rulesOf : γ → List Rule}
    (h : ∀ x, DecidedBy (rulesOf x) (check x)) (xs : List γ) :
    DecidedBy (xs.flatMap rulesOf) (xs.forM check) := by
  induction xs with
  | nil => exact .pure trivial
  | cons x rest ih =>
    rw [List.flatMap_cons]
    exact (h x).andThen ih

end Rule

namespace Sections

open Relation Rule

variable {s : Sections} {projects : ProjectTable}

/-- A condition that is demanded decides one rule. -/
theorem decidedBy_demand {condition : Bool} {kept : Prop} (cause : ConfigFault)
    (h : condition = true ↔ kept) : DecidedBy [.of kept cause] (demand condition cause) := by
  unfold demand
  split
  · rename_i hcondition
    exact .accepted (List.forall_mem_singleton.mpr (h.mp hcondition)) trivial
  · rename_i hcondition
    exact .refused (.here (fun hkept => hcondition (h.mpr hkept)) rfl)

/-! ## The rules of a configuration -/

/-- The rules for one name among those that a project comes after. -/
def dependencyRules (projects : ProjectTable) (name dependency : String) : List Rule :=
  [.of (dependency ∈ projects.names) (.unknownDependency name dependency),
    .of (dependency ≠ name) (.selfDependency name)]

/-- The rules for a project. -/
def projectRules (projects : ProjectTable) (entry : String × ProjectSpec) : List Rule :=
  [.of (Text.trim entry.2.repository ≠ "") (.blankRepository entry.1),
    .of (entry.2.jobs ≠ some 0) (.noJobs entry.1)]
    ++ entry.2.after.flatMap (dependencyRules projects entry.1)

/-- The rules for a daemon. -/
def daemonRules (projects : ProjectTable) (entry : String × DaemonSpec) : List Rule :=
  [.of (entry.2.project ∈ projects.names) (.unknownProject entry.1 entry.2.project),
    .of (¬ entry.2.executable.isAbsolute = true) (.absoluteExecutable entry.1 entry.2.executable)]

/-- The rule against cycles; a project on a cycle is named. -/
def cycleRule (projects : ProjectTable) : Rule where
  Kept := projects.Acyclic
  Blamed fault :=
    ∃ name, TransGen projects.ComesAfter name name ∧ fault = .dependencyCycle name

/-- The rule for an interval. -/
def intervalRule (blame : Duration.Fault → ConfigFault) (text : String) : Rule where
  Kept := ∃ d, Duration.parse text = .ok d
  Blamed fault := ∃ cause, Duration.parse text = .error cause ∧ fault = .invalidConfig (blame cause)

/-- All rules, in the order in which they are looked at: projects in the order of their names,
daemons in the order of their declaration. -/
def rules (s : Sections) : List Rule :=
  .of (s.daemons.entries ≠ []) .noDaemons ::
  .of (Text.trim s.settings.organization ≠ "") .blankOrganization ::
  .of (1 ≤ s.settings.stopMaxChecks) .noStopChecks ::
  (s.projects.entries.flatMap (projectRules s.projects) ++
    (s.daemons.entries.flatMap (daemonRules s.projects) ++
      [cycleRule s.projects, intervalRule .pollInterval s.settings.pollInterval,
        intervalRule .stopPollInterval s.settings.stopPollInterval]))

/-! ## The checks -/

theorem decidedBy_checkDependency (projects : ProjectTable) (name dependency : String) :
    DecidedBy (dependencyRules projects name dependency)
      (checkDependency projects name dependency) := by
  refine .andThen (decidedBy_demand _ ProjectTable.contains_iff) (decidedBy_demand _ ?_)
  exact bne_iff_ne

theorem not_isBlankText_iff {text : String} :
    (!Text.isBlankText text) = true ↔ Text.trim text ≠ "" := by
  rw [Bool.not_eq_true', ← Bool.not_eq_true, Text.isBlankText_iff]

theorem decidedBy_checkProject (projects : ProjectTable) (entry : String × ProjectSpec) :
    DecidedBy (projectRules projects entry) (checkProject projects entry) := by
  unfold projectRules checkProject
  refine .bind_cons (decidedBy_demand _ not_isBlankText_iff) fun _ _ _ => ?_
  refine .bind_cons (decidedBy_demand _ bne_iff_ne) fun _ _ _ => ?_
  exact DecidedBy.forM (decidedBy_checkDependency projects entry.1) entry.2.after

theorem decidedBy_checkDaemon (projects : ProjectTable) (entry : String × DaemonSpec) :
    DecidedBy (daemonRules projects entry) (checkDaemon projects entry) := by
  refine .andThen (decidedBy_demand _ ProjectTable.contains_iff) (decidedBy_demand _ ?_)
  rw [Bool.not_eq_true', Bool.not_eq_true]

/-- Where every project that is named exists, the search for a cycle decides the rule against them.
-/
theorem decidedBy_checkCycle (hordered : projects.Ordered) (hknown : projects.Known) :
    DecidedBy [cycleRule projects] (checkCycle projects) := by
  unfold checkCycle
  cases hcycle : projects.graph.cycle? with
  | none =>
    have hranked := hknown.ranked_of_cycle?_eq_none hcycle
    have hacyclic : projects.Acyclic := ProjectTable.acyclic_of_wellFounded hranked.wellFounded
    exact .accepted (List.forall_mem_singleton.mpr hacyclic) trivial
  | some name =>
    have hself := hknown.transGen_of_cycle?_eq_some hordered hcycle
    exact .refused (.here (fun hacyclic => hacyclic name hself) ⟨name, hself, rfl⟩)

theorem decides_interval (blame : Duration.Fault → ConfigFault) (text : String) :
    Decides (fun d => Duration.parse text = .ok d) [intervalRule blame text]
      (interval blame text) := by
  unfold interval
  cases hparse : Duration.parse text with
  | ok d => exact .accepted (List.forall_mem_singleton.mpr ⟨d, hparse⟩) rfl
  | error cause =>
    refine .refused (.here ?_ ⟨cause, hparse, rfl⟩)
    rintro ⟨d, hd⟩
    rw [hparse] at hd
    cases hd

/-! ## Validation -/

/-- The configuration that sections describe: the sections as they are, with the intervals they
spell out. -/
structure Describes (s : Sections) (cfg : Config) : Prop where
  sections_eq : cfg.toSections = s
  pollInterval : Duration.parse s.settings.pollInterval = .ok cfg.pollInterval
  stopPollInterval : Duration.parse s.settings.stopPollInterval = .ok cfg.stopPolicy.pollInterval
  maxChecks : cfg.stopPolicy.maxChecks = s.settings.stopMaxChecks

/-- Where the rules for projects are kept, every project that is named exists. -/
theorem known_of_kept
    (h : ∀ r ∈ projects.entries.flatMap (projectRules projects), r.Kept) : projects.Known := by
  rintro name dependency ⟨p, hp, hafter⟩
  have hentry := ProjectTable.mem_entries_of_get? hp
  have hrules : ∀ r ∈ dependencyRules projects name dependency, r.Kept := by
    intro r hr
    refine h r (List.mem_flatMap.mpr ⟨(name, p), hentry, List.mem_append_right _ ?_⟩)
    exact List.mem_flatMap.mpr ⟨dependency, hafter, hr⟩
  obtain ⟨hmem, hrest⟩ := List.forall_mem_cons.mp hrules
  exact ⟨hmem, hrest _ List.mem_cons_self⟩

/-- Validation decides the rules. -/
theorem decides_validate (hordered : s.projects.Ordered) :
    Decides s.Describes s.rules s.validate := by
  have hcount : (s.settings.stopMaxChecks != 0) = true ↔ 1 ≤ s.settings.stopMaxChecks := by
    rw [bne_iff_ne, Nat.one_le_iff_ne_zero]
  have hdaemons : (!s.daemons.isEmpty) = true ↔ s.daemons.entries ≠ [] := by
    rw [Bool.not_eq_true', ← Bool.not_eq_true, DaemonTable.isEmpty, List.isEmpty_iff]
  unfold rules validate
  refine .bind_cons (decidedBy_demand _ hdaemons) fun _ _ _ => ?_
  refine .bind_cons (decidedBy_demand _ not_isBlankText_iff) fun _ _ _ => ?_
  refine .bind_cons (decidedBy_demand _ hcount) fun _ _ _ => ?_
  refine .bind (DecidedBy.forM (decidedBy_checkProject s.projects) _) fun _ _ hprojects => ?_
  refine .bind (DecidedBy.forM (decidedBy_checkDaemon s.projects) _) fun _ _ _ => ?_
  have hknown : s.projects.Known := known_of_kept hprojects
  refine .bind_cons (decidedBy_checkCycle hordered hknown) fun _ _ _ => ?_
  refine .bind_cons (decides_interval _ _) fun poll hpoll _ => ?_
  refine .bind_cons (decides_interval _ _) fun stop hstop _ => ?_
  exact .pure ⟨rfl, hpoll, hstop, rfl⟩

/-- What resolution relies on: projects that are named exist, and going from a project to those it
comes after must end. -/
structure Resolvable (s : Sections) : Prop where
  known : s.projects.Known
  wellFounded : WellFounded fun dependency name => s.projects.ComesAfter name dependency
  project : ∀ entry ∈ s.daemons.entries, entry.2.project ∈ s.projects.names

/-- Sections are accepted if they pass every check and both intervals can be read.  They stay as
they are. -/
theorem validate_eq_ok_iff {cfg : Config} : s.validate = .ok cfg ↔
    (demand (!s.daemons.isEmpty) .noDaemons = .ok () ∧
      demand (!Text.isBlankText s.settings.organization) .blankOrganization = .ok () ∧
      demand (s.settings.stopMaxChecks != 0) .noStopChecks = .ok ()) ∧
    (s.projects.entries.forM (checkProject s.projects) = .ok () ∧
      s.daemons.entries.forM (checkDaemon s.projects) = .ok () ∧
      checkCycle s.projects = .ok ()) ∧
    ∃ poll stop, interval .pollInterval s.settings.pollInterval = .ok poll ∧
      interval .stopPollInterval s.settings.stopPollInterval = .ok stop ∧
      cfg = { s with pollInterval := poll, stopPolicy := ⟨stop, s.settings.stopMaxChecks⟩ } := by
  have hunit (f : Unit → Prop) : (∃ a, f a) ↔ f () := ⟨fun ⟨_, h⟩ => h, fun h => ⟨(), h⟩⟩
  have hpure (a : Config) : (pure a : Except Fault Config) = .ok cfg ↔ cfg = a :=
    Except.ok.injEq a cfg ▸ eq_comm
  unfold validate
  simp only [bind_eq_ok_iff, hunit, hpure, and_assoc, exists_and_left]

/-- The daemons of an accepted configuration keep their rules. -/
theorem kept_of_validate {cfg : Config} (h : s.validate = .ok cfg)
    {entry : String × DaemonSpec} (hentry : entry ∈ cfg.daemons.entries) :
    ∀ r ∈ daemonRules cfg.projects entry, r.Kept := by
  obtain ⟨-, ⟨-, hdaemons, -⟩, poll, stop, -, -, rfl⟩ := validate_eq_ok_iff.mp h
  have hkept :=
    (DecidedBy.forM (decidedBy_checkDaemon s.projects) _).exists_ok_iff.mp ⟨(), hdaemons⟩
  exact fun r hr => hkept r (List.mem_flatMap.mpr ⟨entry, hentry, hr⟩)

/-- Sections that are accepted can be resolved. -/
theorem resolvable_of_validate {cfg : Config} (h : s.validate = .ok cfg) :
    cfg.toSections.Resolvable := by
  have hproject : ∀ entry ∈ cfg.daemons.entries, entry.2.project ∈ cfg.projects.names :=
    fun entry hentry => kept_of_validate h hentry _ List.mem_cons_self
  obtain ⟨-, ⟨hprojects, -, hcycle⟩, poll, stop, -, -, rfl⟩ := validate_eq_ok_iff.mp h
  have hknown : s.projects.Known := known_of_kept
    ((DecidedBy.forM (decidedBy_checkProject s.projects) _).exists_ok_iff.mp ⟨(), hprojects⟩)
  have hnone : s.projects.graph.cycle? = none := by
    unfold checkCycle at hcycle
    cases hfound : s.projects.graph.cycle? with
    | none => rfl
    | some name =>
      rw [hfound] at hcycle
      cases hcycle
  exact ⟨hknown, (hknown.ranked_of_cycle?_eq_none hnone).wellFounded, hproject⟩

/-! ## Well-formed configurations -/

/-- Sections that fit together. -/
structure WellFormed (s : Sections) : Prop where
  daemons : s.daemons.entries ≠ []
  organization : Text.trim s.settings.organization ≠ ""
  stopMaxChecks : 1 ≤ s.settings.stopMaxChecks
  repository : ∀ entry ∈ s.projects.entries, Text.trim entry.2.repository ≠ ""
  jobs : ∀ entry ∈ s.projects.entries, entry.2.jobs ≠ some 0
  after : ∀ entry ∈ s.projects.entries, ∀ dependency ∈ entry.2.after,
    dependency ∈ s.projects.names ∧ dependency ≠ entry.1
  project : ∀ entry ∈ s.daemons.entries, entry.2.project ∈ s.projects.names
  executable : ∀ entry ∈ s.daemons.entries, ¬ entry.2.executable.isAbsolute = true
  acyclic : s.projects.Acyclic
  pollInterval : ∃ d, Duration.parse s.settings.pollInterval = .ok d
  stopPollInterval : ∃ d, Duration.parse s.settings.stopPollInterval = .ok d

theorem kept_projectRules_iff {entry : String × ProjectSpec} :
    (∀ r ∈ projectRules projects entry, r.Kept) ↔
      Text.trim entry.2.repository ≠ "" ∧ entry.2.jobs ≠ some 0 ∧
        ∀ dependency ∈ entry.2.after, dependency ∈ projects.names ∧ dependency ≠ entry.1 := by
  simp only [projectRules, dependencyRules, Rule.of, List.forall_mem_append, List.forall_mem_cons,
    List.forall_mem_flatMap, List.not_mem_nil, false_implies, implies_true, and_true, and_assoc]

theorem kept_daemonRules_iff {entry : String × DaemonSpec} :
    (∀ r ∈ daemonRules projects entry, r.Kept) ↔
      entry.2.project ∈ projects.names ∧ ¬ entry.2.executable.isAbsolute = true := by
  simp only [daemonRules, Rule.of, List.forall_mem_cons, List.not_mem_nil, false_implies,
    implies_true, and_true]

/-- Sections are well-formed if and only if they keep all rules. -/
theorem wellFormed_iff_kept : s.WellFormed ↔ ∀ r ∈ s.rules, r.Kept := by
  have hrules : (∀ r ∈ s.rules, r.Kept) ↔
      s.daemons.entries ≠ [] ∧ Text.trim s.settings.organization ≠ "" ∧
      1 ≤ s.settings.stopMaxChecks ∧
      (∀ entry ∈ s.projects.entries, ∀ r ∈ projectRules s.projects entry, r.Kept) ∧
      (∀ entry ∈ s.daemons.entries, ∀ r ∈ daemonRules s.projects entry, r.Kept) ∧
      s.projects.Acyclic ∧ (∃ d, Duration.parse s.settings.pollInterval = .ok d) ∧
      ∃ d, Duration.parse s.settings.stopPollInterval = .ok d := by
    simp only [rules, Rule.of, cycleRule, intervalRule, List.forall_mem_append,
      List.forall_mem_cons, List.forall_mem_flatMap, List.not_mem_nil, false_implies, implies_true,
      and_true]
  rw [hrules]
  simp only [kept_projectRules_iff, kept_daemonRules_iff]
  constructor
  · intro h
    exact ⟨h.daemons, h.organization, h.stopMaxChecks,
      fun entry hentry => ⟨h.repository entry hentry, h.jobs entry hentry, h.after entry hentry⟩,
      fun entry hentry => ⟨h.project entry hentry, h.executable entry hentry⟩,
      h.acyclic, h.pollInterval, h.stopPollInterval⟩
  · rintro ⟨hdaemons, horganization, hchecks, hprojects, hentries, hacyclic, hpoll, hstop⟩
    exact {
      daemons := hdaemons
      organization := horganization
      stopMaxChecks := hchecks
      repository := fun entry hentry => (hprojects entry hentry).1
      jobs := fun entry hentry => (hprojects entry hentry).2.1
      after := fun entry hentry => (hprojects entry hentry).2.2
      project := fun entry hentry => (hentries entry hentry).1
      executable := fun entry hentry => (hentries entry hentry).2
      acyclic := hacyclic
      pollInterval := hpoll
      stopPollInterval := hstop }

/-- Of sections with their projects in order, as all are that were read, validation accepts exactly
the well-formed ones.  It leaves them as they are and reads the intervals they spell out; of other
sections it reports the first rule that they break. -/
theorem validate_accepts_exactly_wellFormed (hordered : s.projects.Ordered) :
    ((∃ cfg, s.validate = .ok cfg) ↔ s.WellFormed) ∧ (s.WellFormed ↔ ∀ r ∈ s.rules, r.Kept) ∧
    (∀ cfg, s.validate = .ok cfg → s.Describes cfg) ∧
    (∀ fault, s.validate = .error fault → FirstBroken fault s.rules) := by
  have hdecides := decides_validate hordered
  refine ⟨?_, wellFormed_iff_kept, ?_, ?_⟩
  · rw [wellFormed_iff_kept]
    exact hdecides.exists_ok_iff
  · exact fun cfg hcfg => hdecides.right_of_ok hcfg
  · exact fun fault hfault => hdecides.firstBroken_of_error hfault

/-! ## Four projects, two of which share a dependency -/

/-- An application on two libraries that are both built on a third one. -/
def diamondSections : Sections :=
  { settings := { organization := "acme" }
    projects := ⟨[("app", { repository := "app", after := ["left", "right", "left"] }),
      ("base", { repository := "base", buildSystem := .make, jobs := some 2 }),
      ("left", { repository := "left", after := ["base"] }),
      ("right", { repository := "right", after := ["base"] })]⟩
    daemons := ⟨[("appd", { project := "app", executable := ⟨"bin/appd"⟩ })]⟩ }

/-- What is configured by it. -/
def diamondConfig : Config :=
  { diamondSections with
    pollInterval := .ofSeconds 60
    stopPolicy := .default }

theorem ordered_diamond : diamondSections.projects.Ordered := by
  unfold ProjectTable.Ordered
  decide

/-- The application is above the libraries, and they are above the base. -/
theorem acyclic_diamond : diamondSections.projects.Acyclic := by
  let rank (name : String) : Nat := if name = "app" then 2 else if name = "base" then 0 else 1
  have hranked : diamondSections.projects.Ranked rank :=
    ProjectTable.ranked_of_entries (by decide)
  exact ProjectTable.acyclic_of_wellFounded hranked.wellFounded

theorem wellFormed_diamond : diamondSections.WellFormed where
  daemons := by decide
  organization := by decide
  stopMaxChecks := by decide
  repository := by decide
  jobs := by decide
  after := by decide
  project := by decide
  executable := by decide
  acyclic := acyclic_diamond
  pollInterval := ⟨.ofSeconds 60, rfl⟩
  stopPollInterval := ⟨.ofSeconds 1, rfl⟩

theorem validate_diamond : diamondSections.validate = .ok diamondConfig := by
  have hdecides := decides_validate ordered_diamond
  obtain ⟨⟨sections, poll, stop, checks⟩, hcfg⟩ :=
    hdecides.exists_ok_iff.mpr (wellFormed_iff_kept.mp wellFormed_diamond)
  obtain ⟨hsections, hpoll, hstop, hchecks⟩ := hdecides.right_of_ok hcfg
  obtain rfl : sections = diamondSections := hsections
  obtain rfl : poll = .ofSeconds 60 := (Except.ok.inj hpoll).symm
  obtain rfl : stop = .ofSeconds 1 := (Except.ok.inj hstop).symm
  obtain rfl : checks = 5 := hchecks
  exact hcfg

/-- The diamond is accepted as it stands. -/
theorem validate_accepts_exactly_wellFormed_diamond :
    diamondSections.projects.Ordered ∧ diamondSections.WellFormed ∧
      ∃ cfg, diamondSections.validate = .ok cfg ∧ diamondSections.Describes cfg := by
  have hspec := validate_accepts_exactly_wellFormed ordered_diamond
  obtain ⟨cfg, hcfg⟩ := hspec.1.mpr wellFormed_diamond
  exact ⟨ordered_diamond, wellFormed_diamond, cfg, hcfg, hspec.2.2.1 cfg hcfg⟩

end Sections

end DaemonKeeper
