import DaemonKeeper.Proofs.DaemonOrder
import DaemonKeeper.Proofs.ProjectOrder
import DaemonKeeper.Proofs.RecordFields
set_option autoImplicit false

/-!
# Known keys (SPEC §4.1)

Reading a document looks up the keys it knows.  So it does not matter which other keys there are,
nor in which order the keys stand.  Only the daemons are taken in the order of their sections, and
only a number that cannot be held makes a difference under a key that is not known.
-/

namespace DaemonKeeper

namespace Config

open Toml

/-! ## Sections under names -/

variable {α : Type} {fields : List String} {sections others : Table} {v w : Value}
  {fine : Value → Prop}

/-- The sections of each name agree in the fields, or there are none in both. -/
def AgreeByName (fields : List String) (sections others : Table) : Prop :=
  ∀ name, Option.Rel (SameFields fields) (sections.lookup name) (others.lookup name)

/-- The values agree as maps of records with these fields. -/
def SameSections (fields : List String) : Value → Value → Prop := OnTables (AgreeByName fields)

/-- What the records of the map have beside these fields is fine. -/
def SectionsBeside (fine : Value → Prop) (fields : List String) : Value → Prop :=
  IfTable fun sections => ∀ e ∈ sections, Beside fine fields e.2

instance [DecidablePred fine] : DecidablePred (SectionsBeside fine fields) :=
  fun v => inferInstanceAs (Decidable (IfTable _ v))

/-- Sections agree with what comes of changing each beside its fields, and then their order. -/
theorem agreeByName_of_perm {changed : Table} (hperm : others.Perm changed)
    (hothers : (others.map (·.1)).Nodup)
    (h : List.Forall₂ (fun x y => y.1 = x.1 ∧ SameFields fields x.2 y.2) sections changed) :
    AgreeByName fields sections others := by
  intro name
  rw [lookup_eq_of_perm hperm hothers]
  exact rel_lookup_of_forall₂ (r := fun _ => SameFields fields) h name

/-- Every section of the others agrees with the one of its name. -/
theorem AgreeByName.exists_sameFields (h : AgreeByName fields sections others)
    (hnodup : (others.map (·.1)).Nodup) {e : String × Value} (hmem : e ∈ others) :
    ∃ v, sections.lookup e.1 = some v ∧ SameFields fields v e.2 := by
  have hrel := h e.1
  rw [(lookup_eq_some_iff_mem hnodup).mpr hmem] at hrel
  exact exists_of_rel_some hrel

/-- A value that agrees in the fields with one that is read is read as the same if it is fine, and
else not at all. -/
def ReadsFields (fields : List String) (fine : Value → Prop)
    (f : String → Value → Except FormFault α) : Prop :=
  ∀ name v w a b, SameFields fields v w → w.keysDistinct = true → f name v = .ok a →
    (f name w = .ok b ↔ b = a ∧ fine w)

theorem readsFields_readProject :
    ReadsFields projectForm.fields (Beside (·.held false = true) projectForm.fields)
      fun _ => readProject :=
  fun _ _ _ _ _ hvw hw hp => hvw.readProject_eq_ok_iff hw hp

/-- What a daemon has beside its fields was taken in before. -/
theorem readsFields_readDaemon : ReadsFields daemonForm.fields (fun _ => True) readDaemon :=
  fun _ _ _ _ _ hvw hw hd => (hvw.readDaemon_eq_ok_iff hw hd).trans (and_iff_left trivial).symm

section

variable {f : String → Value → Except FormFault α} {specs specs' : List (String × α)}

/-- Sections that agree with others that are read are read if and only if they are fine. -/
theorem ReadsFields.exists_readFrom_iff (hf : ReadsFields fields fine f)
    (h : AgreeByName fields sections others) (hothers : (Value.table others).keysDistinct = true)
    (hread : ReadFrom f sections specs) :
    (∃ specs', ReadFrom f others specs') ↔ ∀ e ∈ others, fine e.2 := by
  obtain ⟨hnodup, hdistinct⟩ := keysDistinct_table_iff.mp hothers
  rw [DaemonKeeper.exists_readFrom_iff]
  refine forall₂_congr fun e hmem => ?_
  obtain ⟨v, hfound, hvw⟩ := h.exists_sameFields hnodup hmem
  obtain ⟨a, -, ha⟩ := exists_of_some_rel (hfound ▸ hread.rel_lookup e.1)
  have hone := fun b => hf e.1 v e.2 a b hvw (hdistinct e hmem) ha
  exact ⟨fun ⟨b, hb⟩ => ((hone b).mp hb).2, fun hfine => ⟨a, (hone a).mpr ⟨rfl, hfine⟩⟩⟩

/-- And then the same is read of them. -/
theorem ReadsFields.lookup_eq (hf : ReadsFields fields fine f)
    (h : AgreeByName fields sections others) (hothers : (Value.table others).keysDistinct = true)
    (hread : ReadFrom f sections specs) (hread' : ReadFrom f others specs') (name : String) :
    specs'.lookup name = specs.lookup name := by
  refine eq_of_rel_eq (rel_of_rel (h name) (hread.rel_lookup name) (hread'.rel_lookup name) ?_)
  intro v w a b _ hfound hvw ha hb
  have hw : w.keysDistinct = true := (keysDistinct_table_iff.mp hothers).2 _ (mem_of_lookup hfound)
  exact ((hf name v w a b hvw hw ha).mp hb).1

end

/-- So projects are read as the same. -/
theorem SameSections.readProjects_eq_ok_iff {t t' : ProjectTable}
    (h : SameSections projectForm.fields v w) (hv : v.keysDistinct = true)
    (hw : w.keysDistinct = true) (hread : readProjects v = .ok t) :
    readProjects w = .ok t' ↔
      t' = t ∧ SectionsBeside (·.held false = true) projectForm.fields w := by
  obtain ⟨sections, others, rfl, rfl, hagree⟩ | ⟨vs, ws, rfl, rfl, -⟩ | ⟨rfl, hsimple⟩ :=
    OnTables.cases h
  · obtain ⟨specs, hspecs, rfl⟩ := Config.readProjects_eq_ok_iff.mp hread
    have hexists := readsFields_readProject.exists_readFrom_iff hagree hw hspecs
    have heq : ∀ specs', ReadFrom (fun _ => readProject) others specs' →
        ProjectTable.ofList specs' = ProjectTable.ofList specs := by
      intro specs' hspecs'
      have hnodup := hspecs.names_eq ▸ (keysDistinct_table_iff.mp hv).1
      have hnodup' := hspecs'.names_eq ▸ (keysDistinct_table_iff.mp hw).1
      have hlookup := readsFields_readProject.lookup_eq hagree hw hspecs hspecs'
      -- The same projects in another order make the same table, which is in the order of their names.
      exact ProjectTable.ofList_perm (perm_of_lookup_eq hnodup hnodup' hlookup) hnodup'
    rw [Config.readProjects_eq_ok_iff]
    constructor
    · rintro ⟨specs', hspecs', rfl⟩
      exact ⟨heq specs' hspecs', hexists.mp ⟨specs', hspecs'⟩⟩
    · rintro ⟨rfl, hbeside⟩
      obtain ⟨specs', hspecs'⟩ := hexists.mpr hbeside
      exact ⟨specs', hspecs', (heq specs' hspecs').symm⟩
  · cases hread
  · rw [hread, Except.ok.injEq]
    exact ⟨fun heq => ⟨heq.symm, IfTable.of_simple hsimple⟩, fun heq => heq.1.symm⟩

/-- If all numbers in the sections can be held, so can those in sections that agree with them, if
and only if those beside the fields can. -/
theorem AgreeByName.entriesHeld_iff {generic : Bool} (h : AgreeByName fields sections others)
    (hothers : (Value.table others).keysDistinct = true)
    (hheld : entriesHeld generic sections = true) :
    entriesHeld generic others = true ↔
      SectionsBeside (·.held generic = true) fields (.table others) := by
  obtain ⟨hnodup, hdistinct⟩ := keysDistinct_table_iff.mp hothers
  rw [Toml.entriesHeld_iff] at hheld ⊢
  refine forall₂_congr fun e hmem => ?_
  obtain ⟨v, hfound, hvw⟩ := h.exists_sameFields hnodup hmem
  exact hvw.held_iff (hdistinct e hmem) (hheld _ (mem_of_lookup hfound))

/-- Daemons are read if and only if the numbers beside their fields can be held. -/
theorem SameSections.exists_readDaemons_iff {t : DaemonTable}
    (h : SameSections daemonForm.fields v w) (hv : v.keysDistinct = true)
    (hw : w.keysDistinct = true) (hread : readDaemons v = .ok t) :
    (∃ t', readDaemons w = .ok t') ↔
      SectionsBeside (·.held true = true) daemonForm.fields w := by
  obtain ⟨sections, others, rfl, rfl, hagree⟩ | ⟨vs, ws, rfl, rfl, -⟩ | ⟨rfl, hsimple⟩ :=
    OnTables.cases h
  · have hreads := fun t => readDaemons_eq_ok_iff_of_nodup (t := t) (keysDistinct_table_iff.mp hw).1
    obtain ⟨htaken, hspecs⟩ :=
      (readDaemons_eq_ok_iff_of_nodup (keysDistinct_table_iff.mp hv).1).mp hread
    have hheld := hagree.entriesHeld_iff hw ((takeInEntries_eq_ok_iff true sections).mp htaken)
    simp only [hreads, takeInEntries_eq_ok_iff, ← hheld]
    refine ⟨fun ⟨_, hheld, _⟩ => hheld, fun hheld => ?_⟩
    -- Once they are taken in, the sections are read whatever they have beside their fields.
    obtain ⟨specs', hspecs'⟩ :=
      (readsFields_readDaemon.exists_readFrom_iff hagree hw hspecs).mpr fun _ _ => trivial
    exact ⟨⟨specs'⟩, hheld, hspecs'⟩
  · cases hread
  · exact iff_of_true ⟨t, hread⟩ (IfTable.of_simple hsimple)

/-- And then the same is found under every name. -/
theorem SameSections.get?_eq_of_readDaemons {t t' : DaemonTable}
    (h : SameSections daemonForm.fields v w) (hv : v.keysDistinct = true)
    (hw : w.keysDistinct = true) (hread : readDaemons v = .ok t) (hread' : readDaemons w = .ok t')
    (name : String) : t'.get? name = t.get? name := by
  obtain ⟨sections, others, rfl, rfl, hagree⟩ | ⟨vs, ws, rfl, rfl, -⟩ | ⟨rfl, -⟩ := OnTables.cases h
  · have hspecs := (readDaemons_eq_ok_iff_of_nodup (keysDistinct_table_iff.mp hv).1).mp hread
    have hspecs' := (readDaemons_eq_ok_iff_of_nodup (keysDistinct_table_iff.mp hw).1).mp hread'
    exact readsFields_readDaemon.lookup_eq hagree hw hspecs.2 hspecs'.2 name
  · cases hread
  · rw [Except.ok.inj (hread.symm.trans hread')]

/-! ## Reading a document -/

variable {d d' : Table} {s : Sections} {key : String}

/-- What is read of a section, if it is there. -/
def Reads (read : Value → Except FormFault α) : Option Value → Option α → Prop :=
  Option.Rel fun v a => read v = .ok a

theorem optional_eq_ok_iff {read : Value → Except FormFault α} {g : Given} {o : Option α} :
    g.optional key read = .ok o ↔ Reads read (g.entries.lookup key) o := by
  unfold Given.optional
  cases g.entries.lookup key with
  | none =>
    exact ⟨fun h => by cases h; exact .none, fun h => by cases h; rfl⟩
  | some v =>
    rw [Option.mapM_some]
    refine bind_eq_ok_iff.trans ⟨?_, fun h => ?_⟩
    · rintro ⟨a, ha, h⟩
      obtain rfl := Except.ok.inj h
      exact .some ha
    · obtain ⟨a, rfl, ha⟩ := exists_of_some_rel h
      exact ⟨a, ha, rfl⟩

/-- The sections come of what is read of each, those that are left out with their defaults. -/
structure Reading (d : Table) (s : Sections) : Prop where
  settings : ∃ o, Reads readSettings (d.lookup "config") o ∧ s.settings = o.getD {}
  coordinator : Reads readCoordinator (d.lookup "coordinator") s.coordinator
  projects : ∃ o, Reads readProjects (d.lookup "project") o ∧ s.projects = o.getD .empty
  daemons : ∃ o, Reads readDaemons (d.lookup "daemon") o ∧ s.daemons = o.getD .empty

theorem reading_of_readSections (h : readSections d = .ok s) :
    (∀ e ∈ d, checkSection e = .ok ()) ∧ Reading d s := by
  unfold readSections at h
  obtain ⟨_, hcheck, h⟩ := bind_eq_ok_iff.mp h
  dsimp only at h
  obtain ⟨settings, hsettings, h⟩ := bind_eq_ok_iff.mp h
  obtain ⟨coordinator, hcoordinator, h⟩ := bind_eq_ok_iff.mp h
  obtain ⟨projects, hprojects, h⟩ := bind_eq_ok_iff.mp h
  obtain ⟨daemons, hdaemons, h⟩ := bind_eq_ok_iff.mp h
  obtain rfl := Except.ok.inj h
  exact ⟨forM_eq_ok_iff.mp hcheck, ⟨settings, optional_eq_ok_iff.mp hsettings, rfl⟩,
    optional_eq_ok_iff.mp hcoordinator, ⟨projects, optional_eq_ok_iff.mp hprojects, rfl⟩,
    ⟨daemons, optional_eq_ok_iff.mp hdaemons, rfl⟩⟩

/-- A section that passes its check is read. -/
theorem exists_optional_eq_ok {read : Value → Except FormFault α}
    (h : ∀ e ∈ d, checkSection e = .ok ()) (key : String)
    (hkey : ∀ v, checkSection (key, v) = fits read v) :
    ∃ o, (⟨d, false⟩ : Given).optional key read = .ok o := by
  unfold Given.optional
  cases hfound : d.lookup key with
  | none => exact ⟨none, rfl⟩
  | some v =>
    have hfits := h _ (mem_of_lookup hfound)
    rw [hkey, fits_eq_ok_iff] at hfits
    obtain ⟨a, ha⟩ := hfits
    rw [Option.mapM_some, ha]
    exact ⟨some a, rfl⟩

/-- A document is read if and only if all its sections pass their checks. -/
theorem exists_readSections_iff :
    (∃ s, readSections d = .ok s) ↔ ∀ e ∈ d, checkSection e = .ok () := by
  refine ⟨fun ⟨s, hs⟩ => (reading_of_readSections hs).1, fun h => ?_⟩
  obtain ⟨settings, hsettings⟩ := exists_optional_eq_ok h "config" fun _ => rfl
  obtain ⟨coordinator, hcoordinator⟩ := exists_optional_eq_ok h "coordinator" fun _ => rfl
  obtain ⟨projects, hprojects⟩ := exists_optional_eq_ok h "project" fun _ => rfl
  obtain ⟨daemons, hdaemons⟩ := exists_optional_eq_ok h "daemon" fun _ => rfl
  rw [readSections, forM_eq_ok_iff.mpr h]
  dsimp only [bind, Except.bind]
  rw [hsettings, hcoordinator, hprojects, hdaemons]
  exact ⟨_, rfl⟩

/-! ## Documents that agree in the known keys -/

/-- The documents agree in all keys that are known: each section is left out in both, or they agree
in its fields. -/
structure Restated (d d' : Table) : Prop where
  config : Option.Rel (SameFields settingsForm.fields) (d.lookup "config") (d'.lookup "config")
  coordinator : Option.Rel (SameFields coordinatorForm.fields) (d.lookup "coordinator")
    (d'.lookup "coordinator")
  project : Option.Rel (SameSections projectForm.fields) (d.lookup "project") (d'.lookup "project")
  daemon : Option.Rel (SameSections daemonForm.fields) (d.lookup "daemon") (d'.lookup "daemon")

/-- The keys of the sections. -/
def sectionKeys : List String := ["config", "coordinator", "project", "daemon"]

/-- What stands under any other key is taken in. -/
theorem checkSection_eq_ok_iff {e : String × Value} (h : e.1 ∉ sectionKeys) :
    checkSection e = .ok () ↔ e.2.held false = true := by
  fun_cases checkSection e <;> first | exact takeIn_eq_ok_iff false _ | simp [sectionKeys] at h

/-- Under every key that is not known, the numbers can be held where they are taken in. -/
structure StrangersHeld (d : Table) : Prop where
  document : ∀ e ∈ d, e.1 ∉ sectionKeys → e.2.held false = true
  config : ∀ v, d.lookup "config" = some v → Beside (·.held false = true) settingsForm.fields v
  coordinator : ∀ v, d.lookup "coordinator" = some v →
    Beside (·.held false = true) coordinatorForm.fields v
  project : ∀ v, d.lookup "project" = some v →
    SectionsBeside (·.held false = true) projectForm.fields v
  daemon : ∀ v, d.lookup "daemon" = some v → SectionsBeside (·.held true = true) daemonForm.fields v

/-- The names of the daemons in the order of their sections. -/
def daemonNames (d : Table) : List String :=
  match d.lookup "daemon" with
  | some (.table sections) => sections.map (·.1)
  | _ => []

/-- What is read of two documents is the same, but that the daemons stand in the order of their
sections: wherever the section of a daemon has moved, there the daemon has moved. -/
structure SameButOrder (d d' : Table) (s s' : Sections) : Prop where
  settings : s'.settings = s.settings
  coordinator : s'.coordinator = s.coordinator
  projects : s'.projects = s.projects
  names : s.daemons.names = daemonNames d
  names' : s'.daemons.names = daemonNames d'
  daemons : s'.daemons.entries.Perm s.daemons.entries
  moved : ∀ i j : Nat, (daemonNames d')[j]? = (daemonNames d)[i]? →
    s'.daemons.entries[j]? = s.daemons.entries[i]?
  eq_of_order : daemonNames d' = daemonNames d → s' = s

/-- A section that agrees with one that is read passes its check if and only if it is fine. -/
theorem fits_iff_of_rel {read : Value → Except FormFault α} {related : Value → Value → Prop}
    {x : Option Value} {o : Option α} (hrel : Option.Rel related x (some w)) (hread : Reads read x o)
    (hone : ∀ v a, x = some v → related v w → read v = .ok a → ((∃ b, read w = .ok b) ↔ fine w)) :
    fits read w = .ok () ↔ fine w := by
  obtain ⟨v, rfl, hvw⟩ := exists_of_rel_some hrel
  obtain ⟨a, -, ha⟩ := exists_of_some_rel hread
  rw [fits_eq_ok_iff]
  exact hone v a rfl hvw ha

/-- The keys of tables in a section of a document are distinct if those of the document are. -/
theorem keysDistinct_of_lookup (hd : (Value.table d).keysDistinct = true)
    (h : d.lookup key = some v) : v.keysDistinct = true :=
  (keysDistinct_table_iff.mp hd).2 _ (mem_of_lookup h)

/-- All sections of a document that agrees with one that is read pass their checks if and only if
all numbers under unknown keys can be held. -/
theorem checks_iff_strangersHeld (h : Restated d d') (hd : (Value.table d).keysDistinct = true)
    (hd' : (Value.table d').keysDistinct = true) (hs : Reading d s) :
    (∀ e ∈ d', checkSection e = .ok ()) ↔ StrangersHeld d' := by
  have hconfig : ∀ w, d'.lookup "config" = some w → (checkSection ("config", w) = .ok () ↔
      Beside (·.held false = true) settingsForm.fields w) := by
    intro w hw
    obtain ⟨o, ho, -⟩ := hs.settings
    refine fits_iff_of_rel (hw ▸ h.config) ho fun v a _ hvw ha => ?_
    simp only [SameFields.readSettings_eq_ok_iff hvw (keysDistinct_of_lookup hd' hw) ha,
      exists_eq_left]
  have hcoordinator : ∀ w, d'.lookup "coordinator" = some w →
      (checkSection ("coordinator", w) = .ok () ↔
        Beside (·.held false = true) coordinatorForm.fields w) := by
    intro w hw
    refine fits_iff_of_rel (hw ▸ h.coordinator) hs.coordinator fun v a _ hvw ha => ?_
    simp only [SameFields.readCoordinator_eq_ok_iff hvw (keysDistinct_of_lookup hd' hw) ha,
      exists_eq_left]
  have hproject : ∀ w, d'.lookup "project" = some w → (checkSection ("project", w) = .ok () ↔
      SectionsBeside (·.held false = true) projectForm.fields w) := by
    intro w hw
    obtain ⟨o, ho, -⟩ := hs.projects
    refine fits_iff_of_rel (hw ▸ h.project) ho fun v a hv hvw ha => ?_
    simp only [SameSections.readProjects_eq_ok_iff hvw (keysDistinct_of_lookup hd hv)
      (keysDistinct_of_lookup hd' hw) ha, exists_eq_left]
  have hdaemon : ∀ w, d'.lookup "daemon" = some w → (checkSection ("daemon", w) = .ok () ↔
      SectionsBeside (·.held true = true) daemonForm.fields w) := by
    intro w hw
    obtain ⟨o, ho, -⟩ := hs.daemons
    exact fits_iff_of_rel (hw ▸ h.daemon) ho fun v a hv hvw ha =>
      SameSections.exists_readDaemons_iff hvw (keysDistinct_of_lookup hd hv)
        (keysDistinct_of_lookup hd' hw) ha
  have hfound : ∀ e ∈ d', d'.lookup e.1 = some e.2 :=
    fun e hmem => (lookup_eq_some_iff_mem (keysDistinct_table_iff.mp hd').1).mpr hmem
  constructor
  · intro hall
    exact ⟨fun e hmem hkey => (checkSection_eq_ok_iff hkey).mp (hall e hmem),
      fun w hw => (hconfig w hw).mp (hall _ (mem_of_lookup hw)),
      fun w hw => (hcoordinator w hw).mp (hall _ (mem_of_lookup hw)),
      fun w hw => (hproject w hw).mp (hall _ (mem_of_lookup hw)),
      fun w hw => (hdaemon w hw).mp (hall _ (mem_of_lookup hw))⟩
  · intro hheld e hmem
    have hlookup := hfound e hmem
    fun_cases checkSection e with
    | case1 v => exact (hconfig v hlookup).mpr (hheld.config v hlookup)
    | case2 v => exact (hcoordinator v hlookup).mpr (hheld.coordinator v hlookup)
    | case3 v => exact (hproject v hlookup).mpr (hheld.project v hlookup)
    | case4 v => exact (hdaemon v hlookup).mpr (hheld.daemon v hlookup)
    | case5 key v hconfig hcoordinator hproject hdaemon =>
      have hkey : key ∉ sectionKeys := by simp_all [sectionKeys]
      exact (takeIn_eq_ok_iff false v).mpr (hheld.document _ hmem hkey)

/-! ## What is read -/

/-- Only a table or a date shows itself as a map. -/
theorem table_or_datetime_of_mapForm {entries : Table} (h : mapForm .document v = .ok entries) :
    (∃ sections, v = .table sections) ∨ ∃ day, v = .datetime day := by
  cases v with
  | table sections => exact .inl ⟨sections, rfl⟩
  | datetime day => exact .inr ⟨day, rfl⟩
  | integer n =>
    cases n with
    | none => cases h
    | some n =>
      obtain ⟨seen, hseen, hmap⟩ := bind_eq_ok_iff.mp h
      change seeInteger (some n) = .ok seen at hseen
      obtain ⟨hsee, -⟩ | ⟨f, hsee, -⟩ | ⟨hsee, -⟩ := seeInteger_cases n <;> rw [hsee] at hseen
      · obtain rfl := Except.ok.inj hseen
        cases hmap
      · obtain rfl := Except.ok.inj hseen
        cases hmap
      · cases hseen
  | float f =>
    obtain ⟨seen, hseen, hmap⟩ := bind_eq_ok_iff.mp h
    simp only [see] at hseen
    split at hseen
    · obtain rfl := Except.ok.inj hseen
      cases hmap
    · cases hseen
  | _ => cases h

/-- Daemons that are read have the names of their sections, in their order. -/
theorem names_of_readDaemons {t : DaemonTable} (hv : v.keysDistinct = true)
    (h : readDaemons v = .ok t) :
    t.names.Nodup ∧ ∃ sections, v = .table sections ∧ t.names = sections.map (·.1) := by
  obtain ⟨entries, hentries, -⟩ := bind_eq_ok_iff.mp h
  obtain ⟨sections, rfl⟩ | ⟨day, rfl⟩ := table_or_datetime_of_mapForm hentries
  · have hnodup := (keysDistinct_table_iff.mp hv).1
    have hnames : t.names = sections.map (·.1) :=
      ((readDaemons_eq_ok_iff_of_nodup hnodup).mp h).2.names_eq
    exact ⟨hnames ▸ hnodup, sections, rfl, hnames⟩
  · cases h

/-- So do the daemons of a document. -/
theorem Reading.names_daemons (h : Reading d s) (hd : (Value.table d).keysDistinct = true) :
    s.daemons.names.Nodup ∧ s.daemons.names = daemonNames d := by
  obtain ⟨o, ho, hdaemons⟩ := h.daemons
  unfold daemonNames
  cases hfound : d.lookup "daemon" with
  | none =>
    rw [hfound] at ho
    cases ho
    rw [hdaemons]
    exact ⟨List.nodup_nil, rfl⟩
  | some v =>
    rw [hfound] at ho
    obtain ⟨t, rfl, ht⟩ := exists_of_some_rel ho
    obtain ⟨hnodup, sections, rfl, hnames⟩ :=
      names_of_readDaemons (keysDistinct_of_lookup hd hfound) ht
    rw [hdaemons]
    exact ⟨hnodup, hnames⟩

/-- What is read of documents that agree in the known keys is the same but for the order of daemons. -/
theorem sameButOrder_of_restated {s' : Sections} (h : Restated d d')
    (hd : (Value.table d).keysDistinct = true) (hd' : (Value.table d').keysDistinct = true)
    (hs : Reading d s) (hs' : Reading d' s') : SameButOrder d d' s s' := by
  have hdistinct : ∀ {key w}, d'.lookup key = some w → w.keysDistinct = true :=
    keysDistinct_of_lookup hd'
  have hsettings : s'.settings = s.settings := by
    obtain ⟨o, ho, heq⟩ := hs.settings
    obtain ⟨o', ho', heq'⟩ := hs'.settings
    rw [heq, heq', eq_of_rel_eq (rel_of_rel h.config ho ho' fun v w a b _ hw hvw ha hb =>
      ((SameFields.readSettings_eq_ok_iff hvw (hdistinct hw) ha).mp hb).1)]
  have hcoordinator : s'.coordinator = s.coordinator :=
    eq_of_rel_eq (rel_of_rel h.coordinator hs.coordinator hs'.coordinator
      fun v w a b _ hw hvw ha hb =>
        ((SameFields.readCoordinator_eq_ok_iff hvw (hdistinct hw) ha).mp hb).1)
  have hprojects : s'.projects = s.projects := by
    obtain ⟨o, ho, heq⟩ := hs.projects
    obtain ⟨o', ho', heq'⟩ := hs'.projects
    rw [heq, heq', eq_of_rel_eq (rel_of_rel h.project ho ho' fun v w a b hv hw hvw ha hb =>
      ((SameSections.readProjects_eq_ok_iff hvw (keysDistinct_of_lookup hd hv) (hdistinct hw)
        ha).mp hb).1)]
  have hget : ∀ name, s'.daemons.get? name = s.daemons.get? name := by
    obtain ⟨o, ho, heq⟩ := hs.daemons
    obtain ⟨o', ho', heq'⟩ := hs'.daemons
    have hrel : Option.Rel (fun t t' : DaemonTable => ∀ name, t'.get? name = t.get? name) o o' :=
      rel_of_rel h.daemon ho ho' fun v w a b hv hw hvw ha hb =>
        SameSections.get?_eq_of_readDaemons hvw (keysDistinct_of_lookup hd hv) (hdistinct hw) ha hb
    rw [heq, heq']
    cases hrel with
    | some hget => exact hget
    | none => exact fun _ => rfl
  -- The names are those of the sections, and what is found under a name has not changed: so each daemon
  -- has moved with its name.
  obtain ⟨hnodup, hnames⟩ := hs.names_daemons hd
  obtain ⟨hnodup', hnames'⟩ := hs'.names_daemons hd'
  have hmoved : ∀ i j : Nat, (daemonNames d')[j]? = (daemonNames d)[i]? →
      s'.daemons.entries[j]? = s.daemons.entries[i]? := by
    intro i j hname
    rw [← hnames, ← hnames'] at hname
    exact DaemonTable.getElem?_entries_eq hnodup hnodup' hget hname
  refine ⟨hsettings, hcoordinator, hprojects, hnames, hnames', perm_of_lookup_eq hnodup hnodup' hget,
    hmoved, fun horder => ?_⟩
  have hdaemons : s'.daemons = s.daemons :=
    congrArg DaemonTable.mk (List.ext_getElem? fun i => hmoved i i (by rw [horder]))
  cases s
  cases s'
  cases hsettings
  cases hcoordinator
  cases hprojects
  cases hdaemons
  rfl

/-- Only known keys and the order of daemons matter.  Of two documents that agree in the known keys,
if one is read then so is the other, unless it has a number under another key that cannot be held.
What is read is the same, but that the daemons stand in the order of their sections. -/
theorem reading_depends_on_known_keys (h : Restated d d')
    (hd : (Value.table d).keysDistinct = true) (hd' : (Value.table d').keysDistinct = true)
    (hs : readSections d = .ok s) :
    ((∃ s', readSections d' = .ok s') ↔ StrangersHeld d') ∧
    ∀ s', readSections d' = .ok s' → SameButOrder d d' s s' := by
  obtain ⟨-, hreading⟩ := reading_of_readSections hs
  rw [exists_readSections_iff]
  exact ⟨checks_iff_strangersHeld h hd hd' hreading, fun s' hs' =>
    sameButOrder_of_restated h hd hd' hreading (reading_of_readSections hs').2⟩

/-- A section of a daemon, with these entries besides. -/
def targetWith (extra : Table) : Value :=
  .table ([("project", .text "tgt"), ("executable", .text "bin/tgtd")] ++ extra)

/-- A document with two daemons. -/
def twoDaemons : Table :=
  [("config", .table [("organization", .text "acme")]),
    ("daemon", .table [("tgtd", targetWith []), ("stord", targetWith [])])]

/-- The same with keys that nobody knows, and with all keys in another order. -/
def twoDaemonsRestated : Table :=
  [("version", .integer (some 18446744073709551616)),
    ("daemon", .table [("stord", targetWith []),
      ("tgtd", .table [("executable", .text "bin/tgtd"), ("project", .text "tgt"),
        ("port", .integer (some 7))])]),
    ("config", .table [("colour", .text "red"), ("organization", .text "acme")])]

/-- The daemons change places, and nothing else. -/
theorem reading_depends_on_known_keys_two :
    ∃ s s', readSections twoDaemons = .ok s ∧ readSections twoDaemonsRestated = .ok s' ∧
      s'.settings = s.settings ∧ s'.daemons.names = ["stord", "tgtd"] ∧
      s'.daemons.entries[1]? = s.daemons.entries[0]? := by
  have hstord : SameFields daemonForm.fields (targetWith []) (targetWith []) :=
    alikeUnder_of_perm [] (.refl _) (by decide) nofun
  have hrestated : Restated twoDaemons twoDaemonsRestated := by
    refine ⟨.some ?_, .none, .none, .some ?_⟩
    · exact alikeUnder_of_perm [("colour", .text "red")] (.swap _ _ _) (by decide) (by decide)
    · refine agreeByName_of_perm (.swap _ _ _) (by decide)
        (.cons ⟨rfl, ?_⟩ (.cons ⟨rfl, hstord⟩ .nil))
      exact alikeUnder_of_perm [("port", .integer (some 7))] (.swap _ _ _) (by decide) (by decide)
  have hheld : StrangersHeld twoDaemonsRestated := by
    constructor
    · decide
    all_goals
      intro v hv
      cases hv <;> decide
  have hok : readSections twoDaemons = .ok _ := rfl
  obtain ⟨hread, hsame⟩ := reading_depends_on_known_keys hrestated (by decide) (by decide) hok
  obtain ⟨s', hs'⟩ := hread.mpr hheld
  have hsame' := hsame s' hs'
  exact ⟨_, s', hok, hs', hsame'.settings, hsame'.names', hsame'.moved 0 1 rfl⟩

/-- A document with one daemon. -/
def oneDaemon (extra : Table) : Table := [("daemon", .table [("tgtd", targetWith extra)])]

/-- A number of more than 63 bits under an unknown key of a daemon is too wide for the generic value
in which the daemons are taken in: without the key the document is read, with it it is not. -/
theorem not_read_with_wide_number :
    Restated (oneDaemon []) (oneDaemon [("serial", .integer (some 9223372036854775808))]) ∧
    (Value.table (oneDaemon [])).keysDistinct = true ∧
    (Value.table (oneDaemon [("serial", .integer (some 9223372036854775808))])).keysDistinct = true ∧
    (∃ s, readSections (oneDaemon []) = .ok s) ∧
    ¬ ∃ s, readSections (oneDaemon [("serial", .integer (some 9223372036854775808))]) = .ok s := by
  refine ⟨⟨.none, .none, .none, .some ?_⟩, by decide, by decide, ⟨_, rfl⟩, ?_⟩
  · refine agreeByName_of_perm (.refl _) (by decide) (.cons ⟨rfl, ?_⟩ .nil)
    exact alikeUnder_of_perm _ (.refl _) (by decide) (by decide)
  · rintro ⟨s, hs⟩
    cases hs

end Config

end DaemonKeeper
