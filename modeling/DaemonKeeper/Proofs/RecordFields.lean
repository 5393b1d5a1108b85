import DaemonKeeper.Config.Decode
import DaemonKeeper.Proofs.Entries
import DaemonKeeper.Proofs.NumberRanges
set_option autoImplicit false

/-!
# Fields of records

A record is read in two steps: its entries are checked in turn, then its fields are looked up.  So
what is read depends only on what stands under the fields, in whatever order, and the other entries
decide no more than whether they can be taken in.
-/

namespace DaemonKeeper

namespace Config

open Toml

variable {α : Type} {fields : List String} {entries others : Table} {v w : Value}

/-! ## Tables and other values -/

/-- Tables are related, and anything else is alike. -/
def OnTables (related : Table → Table → Prop) : Value → Value → Prop
  | .table entries, .table others => related entries others
  | v, w => v.Alike w

/-- If the value is a table, its entries satisfy this. -/
def IfTable (holds : Table → Prop) : Value → Prop
  | .table entries => holds entries
  | _ => True

instance (holds : Table → Prop) [DecidablePred holds] : DecidablePred (IfTable holds)
  | .table entries => inferInstanceAs (Decidable (holds entries))
  | .text _ | .integer _ | .float _ | .boolean _ | .datetime _ | .array _ => .isTrue trivial

/-- Such values are both tables, both arrays, or equal. -/
theorem OnTables.cases {related : Table → Table → Prop} (h : OnTables related v w) :
    (∃ entries others, v = .table entries ∧ w = .table others ∧ related entries others) ∨
    (∃ vs ws, v = .array vs ∧ w = .array ws ∧ List.Forall₂ Value.Alike vs ws) ∨
    (w = v ∧ ∀ entries, w ≠ .table entries) := by
  cases v with
  | table entries =>
    cases w with
    | table others => exact .inl ⟨entries, others, rfl, rfl, h⟩
    | _ => cases h
  | array vs =>
    cases w with
    | array ws => exact .inr (.inl ⟨vs, ws, rfl, rfl, Value.Alike.array_iff.mp h⟩)
    | _ => cases h
  | _ =>
    obtain rfl := Value.Alike.eq_of_simple h nofun nofun
    exact .inr (.inr ⟨rfl, nofun⟩)

theorem IfTable.of_simple {holds : Table → Prop} (h : ∀ entries, v ≠ .table entries) :
    IfTable holds v := by
  cases v with
  | table entries => exact absurd rfl (h entries)
  | _ => trivial

/-! ## Agreement in the fields -/

/-- Alike values stand under the fields, or none in both. -/
def AlikeUnder (fields : List String) (entries others : Table) : Prop :=
  ∀ key ∈ fields, Option.Rel Value.Alike (entries.lookup key) (others.lookup key)

/-- The values agree as records with these fields: tables agree under the fields, whatever other
keys they have. -/
def SameFields (fields : List String) : Value → Value → Prop := OnTables (AlikeUnder fields)

/-- What stands under keys beside these is fine. -/
def Beside (fine : Value → Prop) (fields : List String) : Value → Prop :=
  IfTable fun entries => ∀ e ∈ entries, e.1 ∉ fields → fine e.2

instance (fine : Value → Prop) [DecidablePred fine] : DecidablePred (Beside fine fields) :=
  fun v => inferInstanceAs (Decidable (IfTable _ v))

/-- Entries agree under the fields with what comes of adding others and changing the order. -/
theorem alikeUnder_of_perm (extra : Table) (h : others.Perm (entries ++ extra))
    (hothers : (others.map (·.1)).Nodup) (hextra : ∀ e ∈ extra, e.1 ∉ fields) :
    AlikeUnder fields entries others := by
  intro key hkey
  have hnone : extra.lookup key = none := by
    rw [lookup_eq_none_iff_notMem]
    intro hmem
    obtain ⟨e, he, rfl⟩ := List.mem_map.mp hmem
    exact hextra e he hkey
  rw [lookup_eq_of_perm h hothers, List.lookup_append, hnone, Option.or_none]
  cases entries.lookup key with
  | none => exact .none
  | some v => exact .some (Value.Alike.refl v)

/-- Arrays that are alike place by place agree in the fields that they give by position. -/
theorem alikeUnder_zip {vs ws : List Value} (h : List.Forall₂ Value.Alike vs ws)
    (fields names : List String) : AlikeUnder fields (names.zip vs) (names.zip ws) := by
  intro key hkey
  induction h generalizing names with
  | nil => rw [List.zip_nil_right]; exact .none
  | @cons v w vs ws hvw _ ih =>
    cases names with
    | nil => exact .none
    | cons name names =>
      -- The first field is given by the first elements, which are alike.
      rw [List.zip_cons_cons, List.zip_cons_cons, List.lookup_cons, List.lookup_cons]
      cases key == name with
      | true => exact .some hvw
      | false => exact ih names

theorem names_zip (names : List String) (vs : List Value) :
    (names.zip vs).map (·.1) = names.take vs.length := by
  induction names generalizing vs with
  | nil => rw [List.zip_nil_left, List.take_nil, List.map_nil]
  | cons name names ih =>
    cases vs with
    | nil => rfl
    | cons v vs => rw [List.zip_cons_cons, List.map_cons, ih, List.length_cons, List.take_succ_cons]

/-- What alike values share, and all entries have, the entries that agree with them under the fields
have if and only if the others of them do. -/
theorem AlikeUnder.forall_iff {P : String × Value → Prop} (h : AlikeUnder fields entries others)
    (hothers : (others.map (·.1)).Nodup)
    (hfield : ∀ key ∈ fields, ∀ v w, v.Alike w → P (key, v) → P (key, w))
    (hentries : ∀ e ∈ entries, P e) :
    (∀ e ∈ others, P e) ↔ ∀ e ∈ others, e.1 ∉ fields → P e := by
  refine ⟨fun hall e hmem _ => hall e hmem, fun hbeside e hmem => ?_⟩
  by_cases hkey : e.1 ∈ fields
  · have hrel := h e.1 hkey
    rw [(lookup_eq_some_iff_mem hothers).mpr hmem] at hrel
    obtain ⟨v, hfound, hvw⟩ := exists_of_rel_some hrel
    exact hfield e.1 hkey v e.2 hvw (hentries _ (mem_of_lookup hfound))
  · exact hbeside e hmem hkey

/-- If all numbers of a value can be held, so can those of a value that agrees with it in the
fields, if and only if those beside the fields can. -/
theorem SameFields.held_iff {generic : Bool} (h : SameFields fields v w)
    (hw : w.keysDistinct = true) (hv : v.held generic = true) :
    w.held generic = true ↔ Beside (·.held generic = true) fields w := by
  obtain ⟨entries, others, rfl, rfl, halike⟩ | ⟨vs, ws, rfl, rfl, halike⟩ | ⟨rfl, hsimple⟩ :=
    OnTables.cases h
  · rw [Value.held, entriesHeld_iff] at hv ⊢
    exact halike.forall_iff (keysDistinct_table_iff.mp hw).1
      (fun key hkey v w hvw hv => hvw.held_eq.trans hv) hv
  · exact iff_of_true ((Value.Alike.array_iff.mpr halike).held_eq.trans hv) trivial
  · exact iff_of_true hv (IfTable.of_simple hsimple)

/-! ## Reading fields -/

variable {form : Value → Except FormFault α} {g g' : Given}

theorem optional_eq (h : AlikeUnder fields g.entries g'.entries) (key : String) (hkey : key ∈ fields)
    (hform : Orderless form) : g'.optional key form = g.optional key form := by
  have hrel := h key hkey
  unfold Given.optional
  revert hrel
  generalize g.entries.lookup key = x
  generalize g'.entries.lookup key = y
  rintro (hvw | _)
  · rw [Option.mapM_some, Option.mapM_some, hform.congr hvw]
  · rfl

theorem required_eq (h : AlikeUnder fields g.entries g'.entries)
    (hpositional : g'.positional = g.positional) (record : RecordForm) (key : String)
    (hkey : key ∈ fields) (hform : Orderless form) :
    g'.required record key form = g.required record key form := by
  have hrel := h key hkey
  unfold Given.required
  rw [hpositional]
  revert hrel
  generalize g.entries.lookup key = x
  generalize g'.entries.lookup key = y
  rintro (hvw | _)
  · exact (hform.congr hvw).symm
  · rfl

/-! ## Records -/

/-- The check of an entry asks for something orderless under the fields, and under other keys for
something fine. -/
structure ChecksFields (fields : List String) (fine : Value → Prop)
    (check : String × Value → Except FormFault Unit) : Prop where
  field : ∀ key ∈ fields, Orderless fun v => check (key, v)
  beside : ∀ e, e.1 ∉ fields → (check e = .ok () ↔ fine e.2)

/-- What is built depends only on the fields. -/
def BuildsFromFields (fields : List String) (build : Given → Except FormFault α) : Prop :=
  ∀ g g' : Given, AlikeUnder fields g.entries g'.entries → g'.positional = g.positional →
    build g' = build g

/-- A record is read: each entry is checked, then the record is built. -/
def readRecord (record : RecordForm) (stage : Stage)
    (check : String × Value → Except FormFault Unit) (build : Given → Except FormFault α)
    (v : Value) : Except FormFault α := do
  let g ← record.given stage v
  g.entries.forM check
  build g

variable {record : RecordForm} {stage : Stage} {fine : Value → Prop} {a b : α}
  {check : String × Value → Except FormFault Unit} {build : Given → Except FormFault α}

theorem readRecord_eq_ok_iff :
    readRecord record stage check build v = .ok a ↔ ∃ g, record.given stage v = .ok g ∧
      (∀ e ∈ g.entries, check e = .ok ()) ∧ build g = .ok a := by
  rw [readRecord, bind_eq_ok_iff]
  refine exists_congr fun g => and_congr_right fun _ => ?_
  rw [bind_eq_ok_iff, ← forM_eq_ok_iff]
  exact ⟨fun ⟨_, hcheck, hbuild⟩ => ⟨hcheck, hbuild⟩, fun ⟨hcheck, hbuild⟩ => ⟨(), hcheck, hbuild⟩⟩

/-- Where entries pass the check, entries that agree with them in the fields pass it if and only if
the others of them are fine. -/
theorem ChecksFields.check_iff (h : ChecksFields fields fine check)
    (halike : AlikeUnder fields entries others) (hothers : (others.map (·.1)).Nodup)
    (hentries : ∀ e ∈ entries, check e = .ok ()) :
    (∀ e ∈ others, check e = .ok ()) ↔ ∀ e ∈ others, e.1 ∉ fields → fine e.2 := by
  have hfield : ∀ key ∈ fields, ∀ v w, v.Alike w → check (key, v) = .ok () →
      check (key, w) = .ok () :=
    fun key hkey v w hvw hv => ((h.field key hkey).congr hvw).symm.trans hv
  rw [halike.forall_iff hothers hfield hentries]
  exact forall₂_congr fun e _ => forall_congr' fun hbeside => h.beside e hbeside

/-- From values that agree in the fields, entries are given that do.  An array gives no others. -/
theorem SameFields.given (h : SameFields record.fields v w) (hfields : record.fields.Nodup)
    (hw : w.keysDistinct = true) (stage : Stage) (fine : Value → Prop) :
    (∃ g g', record.given stage v = .ok g ∧ record.given stage w = .ok g' ∧
      AlikeUnder record.fields g.entries g'.entries ∧ g'.positional = g.positional ∧
      (g'.entries.map (·.1)).Nodup ∧
      (Beside fine record.fields w ↔ ∀ e ∈ g'.entries, e.1 ∉ record.fields → fine e.2)) ∨
    (w = v ∧ Beside fine record.fields w) := by
  obtain ⟨entries, others, rfl, rfl, halike⟩ | ⟨vs, ws, rfl, rfl, halike⟩ | ⟨rfl, hsimple⟩ :=
    OnTables.cases h
  · exact .inl ⟨⟨entries, false⟩, ⟨others, false⟩, rfl, rfl, halike, rfl,
      (keysDistinct_table_iff.mp hw).1, Iff.rfl⟩
  · refine .inl ⟨⟨record.fields.zip vs, true⟩, ⟨record.fields.zip ws, true⟩, rfl, rfl,
      alikeUnder_zip halike _ _, rfl, ?_, iff_of_true trivial fun e hmem hbeside => ?_⟩
    · exact names_zip record.fields ws ▸ hfields.sublist (List.take_sublist _ _)
    · exact absurd (List.of_mem_zip hmem).1 hbeside
  · exact .inr ⟨rfl, IfTable.of_simple hsimple⟩

/-- A value that agrees in the fields with one that is read is read as the same if what it has
beside them is fine, and else not at all. -/
theorem SameFields.readRecord_eq_ok_iff (h : SameFields record.fields v w)
    (hfields : record.fields.Nodup) (hcheck : ChecksFields record.fields fine check)
    (hbuild : BuildsFromFields record.fields build) (hw : w.keysDistinct = true)
    (hv : readRecord record stage check build v = .ok a) :
    readRecord record stage check build w = .ok b ↔ b = a ∧ Beside fine record.fields w := by
  obtain ⟨g, g', hg, hg', halike, hpositional, hnodup, hbeside⟩ | ⟨rfl, hbeside⟩ :=
    h.given hfields hw stage fine
  · obtain ⟨_, hread, hentries, hbuilt⟩ := Config.readRecord_eq_ok_iff.mp hv
    obtain rfl := Except.ok.inj (hg.symm.trans hread)
    have hcheck' := hcheck.check_iff halike hnodup hentries
    rw [Config.readRecord_eq_ok_iff, hbeside, ← hcheck']
    constructor
    · rintro ⟨_, hread', hentries', hbuilt'⟩
      obtain rfl := Except.ok.inj (hg'.symm.trans hread')
      rw [hbuild g g' halike hpositional, hbuilt] at hbuilt'
      exact ⟨(Except.ok.inj hbuilt').symm, hentries'⟩
    · rintro ⟨rfl, hentries'⟩
      exact ⟨g', hg', hentries', (hbuild g g' halike hpositional).trans hbuilt⟩
  · rw [hv, Except.ok.injEq]
    exact ⟨fun heq => ⟨heq.symm, hbeside⟩, fun heq => heq.1.symm⟩

/-! ## The records of a document -/

theorem Orderless.fits (h : Orderless form) : Orderless (fits form) := by
  intro v
  rw [Config.fits, Config.fits, h v]

theorem fits_eq_ok_iff : fits form v = .ok () ↔ ∃ a, form v = .ok a :=
  bind_eq_ok_iff.trans (exists_congr fun _ => and_iff_left rfl)

theorem orderless_checksForm : Orderless checksForm := orderless_numberForm

theorem orderless_jobsForm : Orderless jobsForm := orderless_numberForm

theorem checksFields_checkSetting :
    ChecksFields settingsForm.fields (·.held false = true) checkSetting where
  field := by
    simp only [settingsForm, List.forall_mem_cons]
    exact ⟨orderless_pathForm.fits, orderless_stringForm.fits, orderless_stringForm.fits,
      orderless_stringForm.fits, orderless_stringForm.fits, orderless_checksForm.fits,
      orderless_stringsForm.fits, nofun⟩
  beside e hkey := by
    fun_cases checkSetting e <;>
      first | exact takeIn_eq_ok_iff false _ | simp [settingsForm] at hkey

theorem SameFields.readSettings_eq_ok_iff {s s' : Settings} (h : SameFields settingsForm.fields v w)
    (hw : w.keysDistinct = true) (hv : readSettings v = .ok s) :
    readSettings w = .ok s' ↔ s' = s ∧ Beside (·.held false = true) settingsForm.fields w := by
  refine h.readRecord_eq_ok_iff (by decide) checksFields_checkSetting (fun g g' halike _ => ?_) hw hv
  rw [optional_eq halike "workspace" (by decide) orderless_pathForm,
    optional_eq halike "git_host" (by decide) orderless_stringForm,
    optional_eq halike "organization" (by decide) orderless_stringForm,
    optional_eq halike "poll_interval" (by decide) orderless_stringForm,
    optional_eq halike "stop_poll_interval" (by decide) orderless_stringForm,
    optional_eq halike "stop_max_checks" (by decide) orderless_checksForm,
    optional_eq halike "privilege_prefix" (by decide) orderless_stringsForm]

theorem checksFields_checkCoordinator :
    ChecksFields coordinatorForm.fields (·.held false = true) checkCoordinator where
  field := by
    simp only [coordinatorForm, List.forall_mem_cons]
    exact ⟨orderless_pathForm.fits, orderless_stringsForm.fits, nofun⟩
  beside e hkey := by
    fun_cases checkCoordinator e <;>
      first | exact takeIn_eq_ok_iff false _ | simp [coordinatorForm] at hkey

theorem SameFields.readCoordinator_eq_ok_iff {c c' : CoordinatorSpec}
    (h : SameFields coordinatorForm.fields v w) (hw : w.keysDistinct = true)
    (hv : readCoordinator v = .ok c) :
    readCoordinator w = .ok c' ↔
      c' = c ∧ Beside (·.held false = true) coordinatorForm.fields w := by
  refine h.readRecord_eq_ok_iff (by decide) checksFields_checkCoordinator
    (fun g g' halike hpositional => ?_) hw hv
  rw [required_eq halike hpositional coordinatorForm "executable" (by decide) orderless_pathForm,
    optional_eq halike "args" (by decide) orderless_stringsForm]

theorem checksFields_checkProject :
    ChecksFields projectForm.fields (·.held false = true) checkProject where
  field := by
    simp only [projectForm, List.forall_mem_cons]
    exact ⟨orderless_stringForm.fits, orderless_stringForm.fits, (orderless_choiceForm _).fits,
      (orderless_choiceForm _).fits, orderless_stringsForm.fits, orderless_jobsForm.fits,
      orderless_flagForm.fits, orderless_stringsForm.fits, orderless_stringsForm.fits, nofun⟩
  beside e hkey := by
    fun_cases checkProject e <;>
      first | exact takeIn_eq_ok_iff false _ | simp [projectForm] at hkey

theorem SameFields.readProject_eq_ok_iff {p p' : ProjectSpec} (h : SameFields projectForm.fields v w)
    (hw : w.keysDistinct = true) (hv : readProject v = .ok p) :
    readProject w = .ok p' ↔ p' = p ∧ Beside (·.held false = true) projectForm.fields w := by
  refine h.readRecord_eq_ok_iff (by decide) checksFields_checkProject
    (fun g g' halike hpositional => ?_) hw hv
  rw [required_eq halike hpositional projectForm "repository" (by decide) orderless_stringForm,
    optional_eq halike "branch" (by decide) orderless_stringForm,
    optional_eq halike "build_type" (by decide) (orderless_choiceForm _),
    optional_eq halike "build_system" (by decide) (orderless_choiceForm _),
    optional_eq halike "cmake_flags" (by decide) orderless_stringsForm,
    optional_eq halike "jobs" (by decide) orderless_jobsForm,
    optional_eq halike "install" (by decide) orderless_flagForm,
    optional_eq halike "vendored" (by decide) orderless_stringsForm,
    optional_eq halike "after" (by decide) orderless_stringsForm]

/-- Any entry will do under a key that is no field of a daemon: it was taken in before. -/
theorem checksFields_checkDaemonEntry :
    ChecksFields daemonForm.fields (fun _ => True) checkDaemonEntry where
  field := by
    simp only [daemonForm, List.forall_mem_cons]
    exact ⟨orderless_stringForm.fits, orderless_pathForm.fits, orderless_stringsForm.fits,
      (orderless_choiceForm _).fits, nofun⟩
  beside e hkey := by
    fun_cases checkDaemonEntry e <;> first | exact iff_of_true rfl trivial | simp [daemonForm] at hkey

/-- A daemon from what was given for it, with faults that do not name it. -/
def daemonOf (g : Given) : Except FormFault DaemonSpec := do
  return {
    project := ← g.required daemonForm "project" (stringForm .generic)
    executable := ← g.required daemonForm "executable" (pathForm .generic)
    arguments := (← g.optional "args" (stringsForm .generic)).getD []
    restart := (← g.optional "restart" (choiceForm .generic restartPolicies)).getD .onRebuild }

theorem blame_eq_ok_iff {name : String} {key : Option String} {r : Except FormFault α} {a : α} :
    blame name key r = .ok a ↔ r = .ok a := by
  cases r with
  | ok b => rfl
  | error cause => exact iff_of_false nofun nofun

theorem forM_blame_eq_ok_iff {name : String} {key : String × Value → Option String} :
    (entries.forM fun e => blame name (key e) (check e)) = .ok () ↔
      ∀ e ∈ entries, check e = .ok () := by
  simp only [forM_eq_ok_iff, blame_eq_ok_iff]

/-- A daemon is read as a record.  An array must not be too long for it. -/
theorem readDaemon_eq_ok_iff {name : String} {d : DaemonSpec} :
    readDaemon name v = .ok d ↔
      readRecord daemonForm .generic checkDaemonEntry daemonOf v = .ok d ∧
        daemonForm.checkLength .generic v = .ok () := by
  simp only [readDaemon, Config.readRecord_eq_ok_iff, daemonOf, bind_eq_ok_iff, blame_eq_ok_iff]
  constructor
  · rintro ⟨g, hg, _, hcheck, p, hp, x, hx, args, hargs, restart, hrestart, _, hlength, hd⟩
    have hentries := forM_blame_eq_ok_iff.mp hcheck
    exact ⟨⟨g, hg, hentries, p, hp, x, hx, args, hargs, restart, hrestart, hd⟩, hlength⟩
  · rintro ⟨⟨g, hg, hentries, p, hp, x, hx, args, hargs, restart, hrestart, hd⟩, hlength⟩
    exact ⟨g, hg, (), forM_blame_eq_ok_iff.mpr hentries, p, hp, x, hx, args, hargs, restart, hrestart,
      (), hlength, hd⟩

theorem SameFields.checkLength_eq {record : RecordForm} {stage : Stage}
    (h : SameFields record.fields v w) :
    record.checkLength stage w = record.checkLength stage v := by
  obtain ⟨entries, others, rfl, rfl, -⟩ | ⟨vs, ws, rfl, rfl, halike⟩ | ⟨rfl, -⟩ := OnTables.cases h
  · cases stage <;> rfl
  · cases stage with
    | document => rfl
    | generic => rw [RecordForm.checkLength, RecordForm.checkLength, halike.length_eq]
  · rfl

theorem SameFields.readDaemon_eq_ok_iff {name : String} {d d' : DaemonSpec}
    (h : SameFields daemonForm.fields v w) (hw : w.keysDistinct = true)
    (hv : readDaemon name v = .ok d) : readDaemon name w = .ok d' ↔ d' = d := by
  rw [Config.readDaemon_eq_ok_iff] at hv ⊢
  have hrecord : readRecord daemonForm .generic checkDaemonEntry daemonOf w = .ok d' ↔
      d' = d ∧ Beside (fun _ => True) daemonForm.fields w := by
    refine h.readRecord_eq_ok_iff (by decide) checksFields_checkDaemonEntry
      (fun g g' halike hpositional => ?_) hw hv.1
    rw [daemonOf, required_eq halike hpositional daemonForm "project" (by decide) orderless_stringForm,
      required_eq halike hpositional daemonForm "executable" (by decide) orderless_pathForm,
      optional_eq halike "args" (by decide) orderless_stringsForm,
      optional_eq halike "restart" (by decide) (orderless_choiceForm _), daemonOf]
  have hbeside : Beside (fun _ => True) daemonForm.fields w := by
    cases w with
    | table entries => exact fun _ _ _ => trivial
    | _ => trivial
  rw [hrecord, h.checkLength_eq]
  exact ⟨fun heq => heq.1.1, fun heq => ⟨⟨heq, hbeside⟩, hv.2⟩⟩

end Config

end DaemonKeeper
