import DaemonKeeper.Proofs.Validation
set_option autoImplicit false

/-!
# A cycle that is reported is one (SPEC §4.1)

Validation looks for cycles once the settings, the projects and the daemons are right by themselves.
It then reports a cycle if and only if there is one, and names a project that comes after itself: a
project that only leads to a cycle, or only is led to by one, is never named.
-/

namespace DaemonKeeper

open Relation

namespace Sections

variable {s : Sections} {name : String}

/-- The checks that are made before the one for cycles. -/
def checkParts (s : Sections) : Except Fault Unit := do
  demand (!s.daemons.isEmpty) .noDaemons
  demand (!Text.isBlankText s.settings.organization) .blankOrganization
  demand (s.settings.stopMaxChecks != 0) .noStopChecks
  s.projects.entries.forM (checkProject s.projects)
  s.daemons.entries.forM (checkDaemon s.projects)

/-- The intervals are read after all checks. -/
def readIntervals (s : Sections) : Except Fault Config := do
  let pollInterval ← interval .pollInterval s.settings.pollInterval
  let stopPollInterval ← interval .stopPollInterval s.settings.stopPollInterval
  return { s with
    pollInterval := pollInterval
    stopPolicy := ⟨stopPollInterval, s.settings.stopMaxChecks⟩ }

/-- Validation is these checks, the one for cycles, and reading the intervals. -/
theorem validate_eq (s : Sections) : s.validate = (do
    s.checkParts
    checkCycle s.projects
    s.readIntervals) := by
  unfold validate checkParts readIntervals
  simp only [bind_assoc]

/-- Where the parts are right, every project that is named exists. -/
theorem known_of_checkParts (h : s.checkParts = .ok ()) : s.projects.Known := by
  unfold checkParts at h
  obtain ⟨-, -, h⟩ := bind_eq_ok_iff.mp h
  obtain ⟨-, -, h⟩ := bind_eq_ok_iff.mp h
  obtain ⟨-, -, h⟩ := bind_eq_ok_iff.mp h
  obtain ⟨⟨⟩, hprojects, -⟩ := bind_eq_ok_iff.mp h
  have hdecided := Rule.DecidedBy.forM (decidedBy_checkProject s.projects) s.projects.entries
  exact known_of_kept (hdecided.exists_ok_iff.mp ⟨(), hprojects⟩)

/-- Reading an interval reports no cycle. -/
theorem interval_ne_dependencyCycle {blame : Duration.Fault → ConfigFault} {text : String} :
    interval blame text ≠ .error (.dependencyCycle name) := by
  unfold interval
  cases Duration.parse text <;> nofun

theorem readIntervals_ne_dependencyCycle : s.readIntervals ≠ .error (.dependencyCycle name) := by
  unfold readIntervals
  intro h
  rcases bind_eq_error_iff.mp h with hpoll | ⟨poll, -, h⟩
  · exact interval_ne_dependencyCycle hpoll
  · rcases bind_eq_error_iff.mp h with hstop | ⟨stop, -, h⟩
    · exact interval_ne_dependencyCycle hstop
    · cases h

/-- Where the parts are right, what is reported is what the search finds. -/
theorem validate_eq_dependencyCycle_iff (h : s.checkParts = .ok ()) :
    s.validate = .error (.dependencyCycle name) ↔ s.projects.graph.cycle? = some name := by
  rw [validate_eq, h]
  show (checkCycle s.projects >>= fun _ => s.readIntervals) = _ ↔ _
  unfold checkCycle
  cases s.projects.graph.cycle? with
  | none => exact iff_of_false readIntervals_ne_dependencyCycle nofun
  | some found =>
    constructor
    · intro hfound
      cases hfound
      rfl
    · intro hfound
      cases hfound
      rfl

/-- Of sections whose projects are in order and whose parts are right, a cycle is reported if and
only if some project comes after itself, directly or through others; and then the one that is named
does. -/
theorem reported_iff_cyclic (hordered : s.projects.Ordered) (h : s.checkParts = .ok ()) :
    ((∃ name, s.validate = .error (.dependencyCycle name)) ↔
      ∃ name, TransGen s.projects.ComesAfter name name) ∧
    ∀ name, s.validate = .error (.dependencyCycle name) →
      TransGen s.projects.ComesAfter name name := by
  have hknown := known_of_checkParts h
  have hreal : ∀ name, s.validate = .error (.dependencyCycle name) →
      TransGen s.projects.ComesAfter name name := by
    intro name hreported
    exact hknown.transGen_of_cycle?_eq_some hordered ((validate_eq_dependencyCycle_iff h).mp hreported)
  refine ⟨⟨?_, ?_⟩, hreal⟩
  · rintro ⟨name, hreported⟩
    exact ⟨name, hreal name hreported⟩
  · rintro ⟨name, hcycle⟩
    cases hfound : s.projects.graph.cycle? with
    | none =>
      have hranked := hknown.ranked_of_cycle?_eq_none hfound
      exact absurd hcycle (ProjectTable.acyclic_of_wellFounded hranked.wellFounded name)
    | some found => exact ⟨found, (validate_eq_dependencyCycle_iff h).mpr hfound⟩

/-! ## Two cycles with projects before, between and behind them -/

/-- An application needs two projects that need each other; one of these needs a bridge to two more
such projects, and one of the latter needs a base. -/
def entangledSections : Sections :=
  { settings := { organization := "acme" }
    projects := ⟨[("app", { repository := "app", after := ["left"] }),
      ("base", { repository := "base" }),
      ("bridge", { repository := "bridge", after := ["up"] }),
      ("down", { repository := "down", after := ["up", "base"] }),
      ("left", { repository := "left", after := ["right", "bridge"] }),
      ("right", { repository := "right", after := ["left"] }),
      ("up", { repository := "up", after := ["down"] })]⟩
    daemons := ⟨[("appd", { project := "app", executable := ⟨"bin/appd"⟩ })]⟩ }

/-- How high a project stands: those that need each other stand at one height. -/
def entangledHeight (name : String) : Nat :=
  if name = "app" then 4
  else if name = "left" ∨ name = "right" then 3
  else if name = "bridge" then 2
  else if name = "up" ∨ name = "down" then 1
  else 0

theorem height_le_of_comesAfter {dependency : String}
    (h : entangledSections.projects.ComesAfter name dependency) :
    entangledHeight dependency ≤ entangledHeight name := by
  obtain ⟨p, hp, hafter⟩ := h
  have hall : ∀ entry ∈ entangledSections.projects.entries, ∀ dependency ∈ entry.2.after,
      entangledHeight dependency ≤ entangledHeight entry.1 := by decide
  exact hall (name, p) (ProjectTable.mem_entries_of_get? hp) dependency hafter

theorem height_le_of_reaches {dependency : String}
    (h : ReflTransGen entangledSections.projects.ComesAfter name dependency) :
    entangledHeight dependency ≤ entangledHeight name := by
  induction h with
  | refl => exact Nat.le_refl _
  | tail _ hlast ih => exact Nat.le_trans (height_le_of_comesAfter hlast) ih

/-- A project that comes after itself comes after one of the same height. -/
theorem exists_same_height (h : TransGen entangledSections.projects.ComesAfter name name) :
    ∃ dependency, entangledSections.projects.ComesAfter name dependency ∧
      entangledHeight dependency = entangledHeight name := by
  obtain ⟨dependency, hfirst, hrest⟩ := TransGen.head'_iff.mp h
  exact ⟨dependency, hfirst,
    Nat.le_antisymm (height_le_of_comesAfter hfirst) (height_le_of_reaches hrest)⟩

/-- The report names one of the four, and neither the application, the bridge nor the base. -/
theorem reported_iff_cyclic_entangled :
    entangledSections.projects.Ordered ∧ entangledSections.checkParts = .ok () ∧
      ∃ name ∈ ["left", "right", "up", "down"],
        entangledSections.validate = .error (.dependencyCycle name) := by
  have hordered : entangledSections.projects.Ordered := by
    unfold ProjectTable.Ordered
    decide
  have hparts : entangledSections.checkParts = .ok () := rfl
  obtain ⟨hiff, hreal⟩ := reported_iff_cyclic hordered hparts
  have hcycle : TransGen entangledSections.projects.ComesAfter "left" "left" :=
    .tail (.single ⟨_, rfl, List.mem_cons_self⟩) ⟨_, rfl, List.mem_cons_self⟩
  obtain ⟨name, hreported⟩ := hiff.mpr ⟨"left", hcycle⟩
  refine ⟨hordered, hparts, name, ?_, hreported⟩
  obtain ⟨dependency, ⟨p, hp, hafter⟩, hheight⟩ := exists_same_height (hreal name hreported)
  have hall : ∀ entry ∈ entangledSections.projects.entries, ∀ dependency ∈ entry.2.after,
      entangledHeight dependency = entangledHeight entry.1 →
        entry.1 ∈ ["left", "right", "up", "down"] := by decide
  exact hall (name, p) (ProjectTable.mem_entries_of_get? hp) dependency hafter hheight

end Sections

end DaemonKeeper
