import DaemonKeeper.Config.Validate
import DaemonKeeper.Proofs.DaemonPasses
import DaemonKeeper.Proofs.DaemonRuns
import DaemonKeeper.Proofs.ProjectOrder
import DaemonKeeper.Proofs.ProjectSources
set_option autoImplicit false

/-!
# Which daemons a rebuild pass rebuilds (SPEC §3.5)

Each daemon is polled in its own turn, after the daemons before it have pulled.  A branch that was
behind when the pass began is behind in the turn of a daemon only if no daemon before it has it in
its tree and was rebuilt.  So of several daemons that share a checkout the first one takes the new
commits, and to the others nothing is new.
-/

namespace DaemonKeeper.Supervisor

open Git

/-- Every branch that the trees of some daemons track. -/
def sites (ds : List Daemon) : List Site := ds.flatMap (·.project.sites)

section

variable {σ : Type}

/-- Whatever the state of the machine, every daemon can be built, and its build moves no head. -/
def BuildsSucceed (machine : (q : Request) → σ → q.Reply × σ) (v : Repositories σ)
    (ds : List Daemon) (buildName : String) : Prop :=
  ∀ d ∈ ds, ∀ w, ∃ path w',
    Action.runWith machine (d.buildBinary buildName).attempt w = (.ok path, w') ∧
      v.heads w' = v.heads w

/-! ## One turn -/

/-- The turn of a daemon with its branches, from the state of the machine before it to its answer
and the state after it. -/
inductive Checked (H : History) (v : Repositories σ) (xs : List Site) (w : σ) :
    Except Fault Bool → σ → Prop
  | unchanged {w' : σ} : v.heads w' = v.heads w → (∀ x ∈ xs, (v.heads w x).Covered H) →
    Checked H v xs w (.ok false) w'
  | rebuilt {w' : σ} : (∃ x ∈ xs, (v.heads w x).Behind H) → Updated H v xs w (.ok ()) w' →
    Checked H v xs w (.ok true) w'
  | failed {w' : σ} {fault : Fault} : (∃ x ∈ xs, (v.heads w x).Diverged H) →
    Checked H v xs w (.error fault) w'

variable {machine : (q : Request) → σ → q.Reply × σ} {H : History} {v : Repositories σ}
variable {known : List Site} {buildName : String}

/-- A daemon whose builds succeed is refreshed if its sources can be updated. -/
theorem exists_runWith_refresh (hgit : LikeGit machine H v known) {d : Daemon}
    (hd : ∀ x ∈ d.project.sites, x ∈ known) (hbuilds : BuildsSucceed machine v [d] buildName)
    (w : σ) :
    ∃ outcome d' w', Action.runWith machine (d.refresh buildName) w = ((outcome, d'), w') ∧
      Updated H v d.project.sites w outcome w' := by
  obtain ⟨outcome, w₁, hclone, hupdated⟩ :=
    Project.exists_runWith_cloneSources hgit d.project hd w
  unfold Daemon.refresh
  rw [Action.runWith_bind_of_eq (x := d.cloneSources.attempt) hclone]
  cases outcome with
  | error fault => exact ⟨.error fault, d, w₁, rfl, hupdated⟩
  | ok =>
    obtain ⟨path, w₂, hbuild, hheads⟩ := hbuilds d (List.mem_singleton.mpr rfl) w₁
    refine ⟨.ok (), d.withBinary path, w₂, ?_, ?_⟩
    · unfold Daemon.build
      rw [Action.runWith_bind_of_eq hbuild]
      rfl
    · exact hupdated.of_heads_eq hheads

/-- The turn of a daemon answers whether one of its branches is behind. -/
theorem exists_runWith_rebuildDaemon (hgit : LikeGit machine H v known) {d : Daemon}
    (hd : ∀ x ∈ d.project.sites, x ∈ known) (hbuilds : BuildsSucceed machine v [d] buildName)
    (w : σ) :
    ∃ outcome d' w', Action.runWith machine (rebuildDaemon buildName d) w = ((outcome, d'), w') ∧
      Checked H v d.project.sites w outcome w' := by
  obtain ⟨outcome, w₁, hpoll, hsame, hpolled⟩ :=
    Project.exists_runWith_hasUpstreamChange hgit d.project hd w
  unfold rebuildDaemon
  rw [Action.runWith_bind_of_eq (x := d.hasUpstreamChange.attempt) hpoll]
  rcases outcome with fault | changed
  · exact ⟨.error fault, d, w₁, rfl, .failed hpolled⟩
  cases changed with
  | false => exact ⟨.ok false, d, w₁, rfl, .unchanged hsame.heads_eq hpolled⟩
  | true =>
    obtain ⟨outcome, d', w', hrefresh, hupdated⟩ := exists_runWith_refresh hgit hd hbuilds w₁
    have hupdated := hupdated.of_same hsame
    refine ⟨outcome.map fun _ => true, d', w', ?_, ?_⟩
    · show Action.runWith machine (d.refresh buildName >>= _) w₁ = _
      rw [Action.runWith_bind_of_eq hrefresh]
      rfl
    · cases outcome with
      | error fault => exact .failed (hupdated.diverged fault rfl)
      | ok => exact .rebuilt hpolled hupdated

/-! ## The pass -/

/-- The flags of a pass that began with `pulled` already pulled: a daemon is rebuilt if and only if
its tree has a branch that was behind at the start and is not pulled yet, and then its branches are
pulled too. -/
inductive Flags (behind : Site → Prop) : List Site → List Daemon → List Bool → Prop
  | nil {pulled : List Site} : Flags behind pulled [] []
  | cons {pulled : List Site} {d : Daemon} {ds : List Daemon} {flag : Bool} {flags : List Bool} :
    (flag = true ↔ ∃ x ∈ d.project.sites, behind x ∧ x ∉ pulled) →
    Flags behind (if flag then pulled ++ d.project.sites else pulled) ds flags →
    Flags behind pulled (d :: ds) (flag :: flags)

/-- What a pass may come to that began with heads `start` and with `pulled` already pulled. -/
def Passed (H : History) (start : Site → Heads) (pulled : List Site) (ds : List Daemon) :
    Except Fault (List Bool) → Prop
  | .error _ => ∃ x ∈ sites ds, (start x).Diverged H
  | .ok flags => Flags (fun x => (start x).Behind H) pulled ds flags

/-- One more turn in front of a pass. -/
theorem Passed.cons {start : Site → Heads} {pulled : List Site} {d : Daemon} {ds : List Daemon}
    {flag : Bool} {outcome : Except Fault (List Bool)}
    (hflag : flag = true ↔ ∃ x ∈ d.project.sites, (start x).Behind H ∧ x ∉ pulled)
    (h : Passed H start (if flag then pulled ++ d.project.sites else pulled) ds outcome) :
    Passed H start pulled (d :: ds) (outcome.map (flag :: ·)) := by
  cases outcome with
  | error fault =>
    obtain ⟨x, hx, hdiverged⟩ := h
    exact ⟨x, List.mem_append_right _ hx, hdiverged⟩
  | ok flags => exact Flags.cons hflag h

/-- A branch is still behind after an update of others, and only then. -/
theorem behind_iff_of_updated {pulled : List Site} {w w' : σ}
    (h : Updated H v pulled w (.ok ()) w') (x : Site) :
    (v.heads w' x).Behind H ↔ (v.heads w x).Behind H ∧ x ∉ pulled := by
  have hnot : (v.heads w' x).Behind H → x ∉ pulled :=
    fun hbehind hx => hbehind.not_covered (h.covered rfl x hx)
  rcases h.moved x with hkept | ⟨hx, hcovered⟩
  · rw [hkept] at hnot ⊢
    exact ⟨fun hbehind => ⟨hbehind, hnot hbehind⟩, And.left⟩
  · exact ⟨fun hbehind => absurd hcovered hbehind.not_covered, fun hbehind => absurd hx hbehind.2⟩

/-- From the start of the pass to the end of a turn: what was pulled before the turn is still
covered, and a daemon that was rebuilt has its branches pulled. -/
theorem Checked.updated {pulled xs : List Site} {w₀ w w' : σ} {flag : Bool}
    (hbefore : Updated H v pulled w₀ (.ok ()) w) (h : Checked H v xs w (.ok flag) w') :
    Updated H v (if flag then pulled ++ xs else pulled) w₀ (.ok ()) w' := by
  cases h with
  | unchanged hheads _ => exact hbefore.of_heads_eq hheads
  | rebuilt _ hupdated => exact hbefore.append hupdated

/-- A turn answers whether a branch is behind that was behind at the start and is not pulled. -/
theorem Checked.flag_iff {pulled xs : List Site} {w₀ w w' : σ} {flag : Bool}
    (hbefore : Updated H v pulled w₀ (.ok ()) w) (h : Checked H v xs w (.ok flag) w') :
    flag = true ↔ ∃ x ∈ xs, (v.heads w₀ x).Behind H ∧ x ∉ pulled := by
  have hbehind := behind_iff_of_updated hbefore
  cases h with
  | unchanged _ hcovered =>
    refine ⟨nofun, ?_⟩
    rintro ⟨x, hx, hstart⟩
    exact absurd (hcovered x hx) ((hbehind x).mpr hstart).not_covered
  | rebuilt hsome _ =>
    obtain ⟨x, hx, hnow⟩ := hsome
    exact ⟨fun _ => ⟨x, hx, (hbehind x).mp hnow⟩, fun _ => rfl⟩

/-- A pass over some of the daemons, when those before them have pulled `pulled`. -/
theorem exists_runWith_forDaemons (hgit : LikeGit machine H v known) {ds : List Daemon}
    (hds : ∀ x ∈ sites ds, x ∈ known) (hbuilds : BuildsSucceed machine v ds buildName)
    {pulled : List Site} {w₀ w : σ} (hbefore : Updated H v pulled w₀ (.ok ()) w) :
    ∃ outcome ds' w', Action.runWith machine (forDaemons (rebuildDaemon buildName) ds) w =
        ((outcome, ds'), w') ∧ Passed H (v.heads w₀) pulled ds outcome := by
  induction ds generalizing pulled w with
  | nil => exact ⟨.ok [], [], w, rfl, Flags.nil⟩
  | cons d rest ih =>
    obtain ⟨hd, hrest⟩ := List.forall_mem_append.mp hds
    obtain ⟨outcome, d', w₁, hrun, hchecked⟩ := exists_runWith_rebuildDaemon hgit hd
      (fun e he => hbuilds e (List.mem_cons.mpr (.inl (List.mem_singleton.mp he)))) w
    unfold forDaemons
    rw [Action.runWith_bind_of_eq hrun]
    cases outcome with
    | error fault =>
      cases hchecked with
      | failed hsome =>
        obtain ⟨x, hx, hdiverged⟩ := hsome
        exact ⟨.error fault, d' :: rest, w₁, rfl, x, List.mem_append_left _ hx,
          hbefore.diverged_before hdiverged⟩
    | ok flag =>
      -- The later turns find what this one has pulled.
      obtain ⟨outcome, rest', w', hlater, hpassed⟩ := ih hrest
        (fun e he => hbuilds e (List.mem_cons_of_mem d he)) (hchecked.updated hbefore)
      refine ⟨outcome.map (flag :: ·), d' :: rest', w', ?_,
        Passed.cons (hchecked.flag_iff hbefore) hpassed⟩
      show Action.runWith machine (forDaemons (rebuildDaemon buildName) rest >>= _) w₁ = _
      rw [Action.runWith_bind_of_eq hlater]
      rfl

/-- A daemon before the one at an index was rebuilt and has the branch in its tree. -/
def PulledBefore (ds : List Daemon) (flags : List Bool) (i : Nat) (x : Site) : Prop :=
  ∃ (j : Nat) (d : Daemon), j < i ∧ ds[j]? = some d ∧ flags[j]? = some true ∧ x ∈ d.project.sites

/-- Nothing was pulled before the first daemon. -/
theorem not_pulledBefore_zero {ds : List Daemon} {flags : List Bool} {x : Site} :
    ¬ PulledBefore ds flags 0 x := by
  rintro ⟨j, _, hj, _⟩
  exact Nat.not_lt_zero j hj

/-- A branch was pulled before a later daemon by the first one or by one in between. -/
theorem pulledBefore_succ_iff {d : Daemon} {ds : List Daemon} {flag : Bool} {flags : List Bool}
    {i : Nat} {x : Site} :
    PulledBefore (d :: ds) (flag :: flags) (i + 1) x ↔
      flag = true ∧ x ∈ d.project.sites ∨ PulledBefore ds flags i x := by
  constructor
  · rintro ⟨j, e, hj, he, hflag, hx⟩
    cases j with
    | zero =>
      cases he
      cases hflag
      exact .inl ⟨rfl, hx⟩
    | succ j => exact .inr ⟨j, e, Nat.lt_of_succ_lt_succ hj, he, hflag, hx⟩
  · rintro (⟨rfl, hx⟩ | ⟨j, e, hj, he, hflag, hx⟩)
    · exact ⟨0, d, Nat.succ_pos i, rfl, rfl, hx⟩
    · exact ⟨j + 1, e, Nat.succ_lt_succ hj, he, hflag, hx⟩

/-- The flag of the daemon at an index. -/
theorem Flags.at_iff {behind : Site → Prop} {pulled : List Site} {ds : List Daemon}
    {flags : List Bool} (h : Flags behind pulled ds flags) {i : Nat} {d : Daemon}
    (hd : ds[i]? = some d) :
    flags[i]? = some true ↔
      ∃ x ∈ d.project.sites, behind x ∧ x ∉ pulled ∧ ¬ PulledBefore ds flags i x := by
  induction h generalizing i with
  | nil => cases hd
  | @cons pulled d₀ ds flag flags hflag _ ih =>
    cases i with
    | zero =>
      obtain rfl : d₀ = d := Option.some.inj hd
      simp only [List.getElem?_cons_zero, Option.some.injEq, hflag, not_pulledBefore_zero,
        not_false_eq_true, and_true]
    | succ i =>
      rw [List.getElem?_cons_succ, ih hd]
      refine exists_congr fun x => and_congr_right fun _ => and_congr_right fun _ => ?_
      rw [pulledBefore_succ_iff]
      cases flag <;> simp [not_or, and_assoc]

/-- On a machine that behaves like git and where builds succeed, a rebuild pass ends in a fault only
if some branch had diverged when it began.  Otherwise a daemon is rebuilt if and only if its tree
has a branch that was behind when the pass began and that no daemon before it has pulled; one that
is rebuilt has its sources updated and its whole recipe run in its turn, and one that is not is only
polled. -/
theorem rebuilt_iff_behind_and_not_pulledBefore {s : Supervisor}
    (hgit : LikeGit machine H v (sites s.daemons))
    (hbuilds : BuildsSucceed machine v s.daemons buildName) (w : σ) :
    (∀ fault, (Action.runWith machine (s.rebuildChanged buildName) w).1.1 = .error fault →
      ∃ x ∈ sites s.daemons, (v.heads w x).Diverged H) ∧
    (∀ flags, (Action.runWith machine (s.rebuildChanged buildName) w).1.1 = .ok flags →
      flags.length = s.daemons.length ∧
      (∀ (i : Nat) d, s.daemons[i]? = some d → (flags[i]? = some true ↔
        ∃ x ∈ d.project.sites, (v.heads w x).Behind H ∧ ¬ PulledBefore s.daemons flags i x)) ∧
      ∃ turns : List (List Exchange),
        Action.traceWith machine (s.rebuildChanged buildName) w = turns.flatten ∧
        ∀ (i : Nat) d, s.daemons[i]? = some d → ∃ turn flag d', turns[i]? = some turn ∧
          flags[i]? = some flag ∧
          (Action.runWith machine (s.rebuildChanged buildName) w).1.2.daemons[i]? = some d' ∧
          Renewed buildName d turn flag d') := by
  obtain ⟨outcome, ds', w', hpass, hpassed⟩ :=
    exists_runWith_forDaemons hgit (fun x hx => hx) hbuilds (.nil (.refl v w))
  have hrun : Action.runWith machine (s.rebuildChanged buildName) w =
      ((outcome, s.withDaemons ds'), w') := by
    unfold rebuildChanged eachDaemon
    rw [Action.runWith_bind_of_eq hpass]
    rfl
  have hruns := Action.runs_traceWith machine (s.rebuildChanged buildName) w
  rw [hrun] at hruns ⊢
  refine ⟨?_, ?_⟩
  · rintro fault rfl
    exact hpassed
  rintro flags rfl
  obtain ⟨log, ds'', htrace, htour, hdaemons⟩ := tour_of_runs_eachDaemon hruns
  obtain rfl : ds' = ds'' := congrArg Supervisor.daemons hdaemons
  have hsucceeds := htour.succeeds
  refine ⟨hsucceeds.length_answers, ?_, log.turns 0 s.daemons.length,
    htrace.symm.trans hsucceeds.trace_eq, ?_⟩
  · intro i d hd
    rw [Flags.at_iff hpassed hd]
    simp only [List.not_mem_nil, not_false_eq_true, true_and]
  · intro i d hd
    obtain ⟨flag, d', hflag, hd', hrebuild⟩ := hsucceeds.turn i d hd
    have hi : i < s.daemons.length := (List.getElem?_eq_some_iff.mp hd).1
    exact ⟨_, flag, d', log.getElem?_turns hi, hflag, hd', renewed_of_runs_rebuildDaemon hrebuild⟩

end

/-! ## Two daemons of one project -/

/-- One project, and two daemons that are built from it. -/
def pairSections : Sections :=
  { settings := { organization := "acme" }
    projects := ⟨[("svc", { repository := "svc", buildSystem := .make })]⟩
    daemons := ⟨[("a", { project := "svc", executable := ⟨"bin/svcd"⟩ }),
      ("b", { project := "svc", executable := ⟨"bin/svcd"⟩ })]⟩ }

/-- What is supervised with these sections. -/
def pairConfig : Config :=
  { pairSections with
    pollInterval := .ofSeconds 60
    stopPolicy := .default }

/-- The tree of that project. -/
def pairProject : Project :=
  { name := "svc"
    spec := { repository := "svc", buildSystem := .make }
    repository :=
      { parent := ⟨"."⟩
        name := "svc"
        branch := "master"
        host := "github.com"
        organization := "acme" }
    dependencies := []
    privilegePrefix := ["sudo"]
    jobs := 1 }

/-- The supervisor of the two daemons. -/
def pair : Supervisor :=
  { coordinator := none
    daemons := [.ofSpec "a" { project := "svc", executable := ⟨"bin/svcd"⟩ } pairProject .default,
      .ofSpec "b" { project := "svc", executable := ⟨"bin/svcd"⟩ } pairProject .default]
    pollInterval := .ofSeconds 60 }

/-- A first commit and one after it. -/
def twoCommits : History where
  parents commit := if commit = "new" then ["old"] else []
  acyclic := History.acyclic_of_measure (fun commit => if commit = "new" then 1 else 0) (by
    intro a b h
    by_cases hb : b = "new"
    · simp only [hb, if_true, List.mem_singleton] at h
      simp [h, hb]
    · simp [hb] at h)

/-- The one checkout is at the first commit until it is pulled; its remote is at the second. -/
def pairRepositories : Repositories Bool where
  heads pulled x := ⟨if x = pairProject.repository.site ∧ !pulled then "old" else "new", "new"⟩
  fetched _ _ := True

/-- The machine on which the two daemons run; its state is whether the checkout was pulled. -/
def pairMachine (q : Request) (pulled : Bool) : q.Reply × Bool :=
  match q with
  | .run _ command =>
    let here := if pulled then "new" else "old"
    if command.arguments = ["branch"] then (.ok ⟨0, ["* master"], []⟩, pulled)
    else if command.arguments = ["rev-parse", "master"] then (.ok ⟨0, [here], []⟩, pulled)
    else if command.arguments = ["rev-parse", "origin/master"] then (.ok ⟨0, ["new"], []⟩, pulled)
    else if command.arguments = ["merge-base", "master", "origin/master"] then
      (.ok ⟨0, [here], []⟩, pulled)
    else if command.arguments = ["pull", "origin", "master"] then (.ok ⟨0, [], []⟩, true)
    else (.ok ⟨0, [], []⟩, pulled)
  | .readFile _ => (.error .notFound, pulled)
  | .isDirectory _ => (true, pulled)
  | .isExecutable _ => (true, pulled)
  | .createDirectory _ => (.ok (), pulled)
  | .writeFile _ _ => (.ok (), pulled)
  | .spawn _ _ => (.ok 1, pulled)
  | .status _ => (.alive, pulled)
  | .signal _ _ => (.ok (), pulled)
  | .kill _ => (.ok (), pulled)
  | .sleep _ => ((), pulled)
  | .pause _ => (.elapsed, pulled)
  | .clock => (.ofSeconds 0, pulled)

/-- The one project comes after no other. -/
theorem cycle?_pair : pairSections.projects.graph.cycle? = none :=
  ProjectTable.Ordered.cycle?_eq_none (List.pairwise_singleton _ _) (fun _ => 0) (by decide)

/-- The sections are valid, and the two daemons are the ones they describe. -/
theorem ofConfig_pair :
    pairSections.validate = .ok pairConfig ∧ Supervisor.ofConfig pairConfig 1 = .ok pair := by
  refine ⟨?_, rfl⟩
  unfold Sections.validate Sections.checkCycle
  rw [cycle?_pair]
  rfl

/-- The trees of the two daemons track one branch. -/
theorem mem_sites_pair {x : Site} (h : x ∈ sites pair.daemons) :
    x = pairProject.repository.site := by
  simpa [sites, pair, Daemon.ofSpec, pairProject, Project.sites, Project.allSites] using h

/-- The second commit comes after the first. -/
theorem ancestor_old_new : twoCommits.Ancestor "old" "new" :=
  Relation.ReflTransGen.single (List.mem_singleton.mpr rfl)

/-- Until it is pulled, the checkout is behind. -/
theorem behind_pair :
    (pairRepositories.heads false pairProject.repository.site).Behind twoCommits :=
  ⟨by decide, ancestor_old_new⟩

/-- On the machine of the two daemons git works as usual. -/
theorem likeGit_pair : LikeGit pairMachine twoCommits pairRepositories (sites pair.daemons) := by
  constructor <;> intro x hx <;> obtain rfl := mem_sites_pair hx
  case isDirectory => exact fun _ => rfl
  case branch => exact fun _ => ⟨_, "master", rfl, by decide⟩
  case errand =>
    intro arguments harguments w
    simp only [Site.errands, List.mem_cons, List.not_mem_nil, or_false] at harguments
    rcases harguments with rfl | rfl | rfl | rfl <;> exact ⟨_, rfl⟩
  case fetch => exact fun _ => trivial
  case here =>
    intro w
    cases w <;> exact ⟨_, _, rfl, rfl, by decide⟩
  case there =>
    intro w _
    cases w <;> exact ⟨_, _, rfl, rfl, by decide⟩
  case mergeBase =>
    intro w _
    cases w with
    | false => exact .inl ⟨"old", .of_ancestor ancestor_old_new, _, _, rfl, rfl, by decide⟩
    | true => exact .inl ⟨"new", .of_ancestor (.refl _ _), _, _, rfl, rfl, by decide⟩
  case same =>
    intro q hq w
    simp only [Site.still, Site.errands, List.map_cons, List.map_nil, List.cons_append,
      List.nil_append, List.mem_cons, List.not_mem_nil, or_false] at hq
    rcases hq with rfl | rfl | rfl | rfl | rfl | rfl | rfl | rfl | rfl <;> exact .refl _ w
  case pull =>
    intro w
    cases w with
    | false => exact .forwarded behind_pair
    | true => exact .nothingNew (.refl _ _)
  case pull_elsewhere =>
    intro y hy w
    simp [pairRepositories, hy]

/-- And both daemons can be built. -/
theorem buildsSucceed_pair : BuildsSucceed pairMachine pairRepositories pair.daemons "build-1" := by
  intro d hd w
  simp only [pair, List.mem_cons, List.not_mem_nil, or_false] at hd
  rcases hd with rfl | rfl <;> exact ⟨_, w, rfl, rfl⟩

/-- Both daemons have the branch that is behind in their trees, and only the first is rebuilt. -/
theorem rebuildChanged_loses_shared_change :
    (pairSections.validate = .ok pairConfig ∧ Supervisor.ofConfig pairConfig 1 = .ok pair) ∧
    LikeGit pairMachine twoCommits pairRepositories (sites pair.daemons) ∧
    BuildsSucceed pairMachine pairRepositories pair.daemons "build-1" ∧
    (∀ d ∈ pair.daemons,
      ∃ x ∈ d.project.sites, (pairRepositories.heads false x).Behind twoCommits) ∧
    (Action.runWith pairMachine (pair.rebuildChanged "build-1") false).1.1 = .ok [true, false] := by
  refine ⟨ofConfig_pair, likeGit_pair, buildsSucceed_pair, ?_, rfl⟩
  intro d hd
  simp only [pair, List.mem_cons, List.not_mem_nil, or_false] at hd
  rcases hd with rfl | rfl <;>
    exact ⟨pairProject.repository.site, List.mem_cons_self, behind_pair⟩

/-- To the second of the two daemons nothing is new, because the first has pulled the branch. -/
theorem rebuilt_iff_behind_and_not_pulledBefore_pair :
    LikeGit pairMachine twoCommits pairRepositories (sites pair.daemons) ∧
    BuildsSucceed pairMachine pairRepositories pair.daemons "build-1" ∧
    ¬ ∃ x ∈ pairProject.sites, (pairRepositories.heads false x).Behind twoCommits ∧
      ¬ PulledBefore pair.daemons [true, false] 1 x := by
  have hpass := rebuilt_iff_behind_and_not_pulledBefore likeGit_pair buildsSucceed_pair false
  have hflag := (hpass.2 [true, false] rfl).2.1 1 _ rfl
  exact ⟨likeGit_pair, buildsSucceed_pair, fun hsome => nomatch hflag.mpr hsome⟩

end DaemonKeeper.Supervisor
