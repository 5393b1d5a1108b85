import DaemonKeeper.Proofs.Probes
import DaemonKeeper.Proofs.RebuildPass
import DaemonKeeper.Proofs.RunLogs
import DaemonKeeper.Proofs.TreeVisits
set_option autoImplicit false

/-!
# Tracked branches: what is checked out when a branch is pulled (SPEC §3.2)

An update pulls its branch first and checks it out after that.  So a pull finds the branch checked
out that was used last in its directory.  That is the right one as long as every directory has one
tracked branch; nothing in the validation of a configuration sees to that, and where two branches
are tracked in one directory some pull goes into the wrong one.
-/

namespace DaemonKeeper

open Git

variable {α : Type} {directory : Path} {branch : String} {sites more : List Site}
variable {trace rest : List Exchange}

/-! ## The last checkout -/

/-- A branch that is pulled, in a checkout. -/
def pull? : Path × List String → Option (Path × String)
  | (directory, ["git", "pull", "origin", branch]) => some (directory, branch)
  | _ => none

/-- The branch that was checked out last in a directory. -/
def lastCheckout (directory : Path) (trace : List Exchange) : Option String :=
  ((seen checkout? trace).filterMap fun shown =>
    if shown.1 = directory then some shown.2 else none).getLast?

theorem lastCheckout_append :
    lastCheckout directory (trace ++ rest) =
      (lastCheckout directory rest).or (lastCheckout directory trace) := by
  unfold lastCheckout
  rw [seen_append, List.filterMap_append, List.getLast?_append]

/-- If the request is a checkout, it is one of these. -/
def Request.ChecksOutIn (sites : List Site) (q : Request) : Prop :=
  ∀ directory branch,
    q.sends.bind checkout? = some (directory, branch) → ⟨directory, branch⟩ ∈ sites

theorem Request.ChecksOutIn.mono {q : Request} (h : q.ChecksOutIn sites) (hsub : sites ⊆ more) :
    q.ChecksOutIn more :=
  fun directory branch hshown => hsub (h directory branch hshown)

theorem Request.checksOutIn_of_none {q : Request} (h : q.sends.bind checkout? = none) :
    q.ChecksOutIn sites := by
  intro directory branch hshown
  rw [h] at hshown
  cases hshown

/-- What was checked out last was checked out. -/
theorem mem_of_lastCheckout (h : ∀ e ∈ trace, e.request.ChecksOutIn sites)
    (hlast : lastCheckout directory trace = some branch) : ⟨directory, branch⟩ ∈ sites := by
  obtain ⟨⟨directory', branch'⟩, hshown, hsame⟩ :=
    List.mem_filterMap.mp (List.mem_of_getLast? hlast)
  obtain ⟨words, hsent, hlook⟩ := List.mem_filterMap.mp hshown
  obtain ⟨e, he, hsends⟩ := List.mem_filterMap.mp hsent
  split at hsame
  · rename_i hdirectory
    obtain rfl : directory' = directory := hdirectory
    obtain rfl : branch' = branch := Option.some.inj hsame
    refine h e he directory' branch' ?_
    rw [hsends]
    exact hlook
  · cases hsame

/-- Where nothing is checked out, the last checkout stays what it was. -/
theorem lastCheckout_append_of_none (h : ∀ e ∈ rest, e.request.ChecksOutIn []) :
    lastCheckout directory (trace ++ rest) = lastCheckout directory trace := by
  have hnone : lastCheckout directory rest = none := by
    refine Option.eq_none_iff_forall_ne_some.mpr fun branch hlast => ?_
    cases mem_of_lastCheckout h hlast
  rw [lastCheckout_append, hnone, Option.none_or]

/-! ## What the tasks check out -/

/-- An update checks out its branch. -/
theorem Git.Repository.checksOutIn_update (r : Repository) :
    Task.Only (Request.ChecksOutIn [r.site]) (do r.clone; r.checkout) := by
  refine .bind (Repository.only_clone.mono ?_) fun _ => Repository.only_gitEffect ?_
  · rintro _ ⟨⟩ <;> exact Request.checksOutIn_of_none rfl
  · intro directory branch hshown
    cases hshown
    exact List.mem_singleton_self _

/-- A poll checks nothing out. -/
theorem Git.Repository.checksOutIn_poll (r : Repository) :
    r.hasUpstreamChange.Only (Request.ChecksOutIn []) := by
  refine Repository.only_hasUpstreamChange.mono ?_
  rintro _ ⟨⟩ <;> exact Request.checksOutIn_of_none rfl

/-- A look to which a recipe shows nothing: neither its look at a head nor its plain steps. -/
structure SeesNoRecipe {γ : Type} (look : Path × List String → Option γ) : Prop where
  head : ∀ directory reference, look (directory, ["git", "rev-parse", reference]) = none
  plain : ∀ s : BuildStep, s.Plain → s.sends.bind look = none

/-- Recipes check nothing out. -/
theorem seesNoRecipe_checkout? : SeesNoRecipe checkout? where
  head _ _ := rfl
  plain s h := by
    refine Option.bind_eq_none_iff.mpr fun ⟨directory, words⟩ hsends => ?_
    unfold checkout?
    split
    · rename_i hwords
      obtain ⟨rfl, rfl⟩ := Prod.mk.inj hwords
      exact absurd (h _ _ _ hsends) (by decide)
    · rfl

namespace Project

variable {p : Project} {buildName : String} {γ : Type} {look : Path × List String → Option γ}

/-- Every command of a recipe is a step of its plan. -/
theorem silent_of_runs_buildOwn (hlook : SeesNoRecipe look) {outcome : Except Fault Path}
    (h : Action.Runs (p.buildOwn buildName).attempt trace outcome) :
    ∀ e ∈ trace, e.request.sends.bind look = none := by
  have hplan : ∀ s ∈ p.ownPlan buildName, s.sends.bind look = none := by
    obtain ⟨steps, hplain, hplan⟩ := p.ownPlan_eq_cons buildName
    rw [hplan]
    exact List.forall_mem_cons.mpr ⟨hlook.head _ _, fun s hs => hlook.plain s (hplain s hs)⟩
  intro e he
  obtain ⟨s, hs, hasks⟩ := (p.follows_buildOwn buildName).asks h e he
  exact hasks.sends ▸ hplan s hs

/-- So is every command of a build. -/
theorem silent_of_runs_build (hlook : SeesNoRecipe look) {outcome : Except Fault Path}
    (h : Action.Runs (p.build buildName).attempt trace outcome) :
    ∀ e ∈ trace, e.request.sends.bind look = none :=
  (p.follows_recipe buildName).forall_exchange (fun _ _ _ _ hpart =>
    silent_of_runs_buildOwn hlook hpart) h

mutual
/-- The branches that a tree tracks are those of its nodes. -/
theorem sites_eq (p : Project) : p.sites = p.rootFirst.map (·.repository.site) :=
  match p with
  | ⟨_, _, _, dependencies, _, _⟩ => by
    unfold Project.sites rootFirst
    rw [List.map_cons, allSites_eq dependencies]

theorem allSites_eq (ps : List Project) :
    allSites ps = (allRootFirst ps).map (·.repository.site) :=
  match ps with
  | [] => by
    unfold allSites allRootFirst
    rfl
  | p :: rest => by
    unfold allSites allRootFirst
    rw [List.map_append, sites_eq p, allSites_eq rest]
end

/-- In the order of updates they are the same. -/
theorem sites_perm (p : Project) :
    p.sites.Perm (p.dependenciesFirst.map (·.repository.site)) := by
  rw [sites_eq]
  exact p.rootFirst_perm_dependenciesFirst.map _

/-- An update of a tree checks out what the tree tracks. -/
theorem checksOutIn_of_runs_cloneSources {outcome : Except Fault Unit}
    (h : Action.Runs p.cloneSources.attempt trace outcome) :
    ∀ e ∈ trace, e.request.ChecksOutIn p.sites := by
  refine p.follows_update.forall_exchange (fun node hnode part result hpart e he => ?_) h
  have hsite : node.repository.site ∈ p.sites :=
    p.sites_perm.mem_iff.mpr (List.mem_map_of_mem hnode)
  exact (Action.Only.of_runs node.repository.checksOutIn_update hpart e he).mono
    (List.cons_subset.mpr ⟨hsite, List.nil_subset _⟩)

/-- A poll of it checks nothing out. -/
theorem checksOutIn_of_runs_hasUpstreamChange {outcome : Except Fault Bool}
    (h : Action.Runs p.hasUpstreamChange.attempt trace outcome) :
    ∀ e ∈ trace, e.request.ChecksOutIn [] :=
  p.asks_hasUpstreamChange.forall_exchange (fun node _ _ _ hpart =>
    Action.Only.of_runs node.repository.checksOutIn_poll hpart) h

end Project

/-! ## Passes over the daemons -/

namespace Supervisor

variable {d d' : Daemon} {ds ds' : List Daemon} {s s' : Supervisor} {buildName : String}

/-- The build of a daemon is a recipe and a look at what it has left. -/
theorem silent_of_runs_buildBinary {γ : Type} {look : Path × List String → Option γ}
    (hlook : SeesNoRecipe look) {outcome : Except Fault Path}
    (h : Action.Runs (d.buildBinary buildName).attempt trace outcome) :
    ∀ e ∈ trace, e.request.sends.bind look = none := by
  have hensure : ∀ {output : Path} {last : List Exchange} {result : Except Fault Path},
      Action.Runs (Task.attempt (do
        Daemon.ensureExecutable (output.join d.binary.text)
        return output.join d.binary.text)) last result →
      ∀ e ∈ last, e.request.sends.bind look = none := by
    intro output last result hlast
    have hcheck : (Daemon.ensureExecutable (output.join d.binary.text)).Silent look :=
      .bind (.request rfl) fun _ => .ite (.pure ()) (.fail _)
    exact Action.Only.of_runs (Task.Only.bind hcheck fun _ => .pure _) hlast
  cases outcome with
  | ok path =>
    obtain ⟨recipe, last, output, rfl, hrecipe, hlast⟩ := Task.runs_bind_ok_iff.mp h
    exact List.forall_mem_append.mpr
      ⟨Project.silent_of_runs_build hlook hrecipe, hensure hlast⟩
  | error fault =>
    rcases Task.runs_bind_error_iff.mp h with hrecipe | ⟨recipe, last, output, rfl, hrecipe, hlast⟩
    · exact Project.silent_of_runs_build hlook hrecipe
    · exact List.forall_mem_append.mpr
        ⟨Project.silent_of_runs_build hlook hrecipe, hensure hlast⟩

/-- It checks nothing out. -/
theorem checksOutIn_of_runs_buildBinary {outcome : Except Fault Path}
    (h : Action.Runs (d.buildBinary buildName).attempt trace outcome) :
    ∀ e ∈ trace, e.request.ChecksOutIn [] := fun e he =>
  Request.checksOutIn_of_none (silent_of_runs_buildBinary seesNoRecipe_checkout? h e he)

variable {P : List Exchange → Prop}

/-- What composes is so of a refresh if it is so of an update and of a build. -/
theorem composes_refresh (hP : Composes P) {outcome : Except Fault Unit}
    (hupdate : ∀ update updated, Action.Runs d.cloneSources.attempt update updated → P update)
    (hbuild : ∀ recipe built,
      Action.Runs (d.buildBinary buildName).attempt recipe built → P recipe)
    (h : Action.Runs (d.refresh buildName) trace (outcome, d')) : P trace := by
  obtain ⟨update, build, updated, rfl, hupdated, hrest⟩ := Action.runs_bind_iff.mp h
  refine hP.append (hupdate update updated hupdated) ?_
  cases updated with
  | error fault =>
    obtain ⟨rfl, -, -⟩ := Action.runs_pure_pair_iff.mp hrest
    exact hP.nil
  | ok =>
    obtain ⟨recipe, last, built, rfl, hrecipe, hend⟩ := Action.runs_bind_iff.mp hrest
    have hlast : last = [] := by
      cases built with
      | ok path => exact (Action.runs_pure_pair_iff.mp hend).1
      | error fault => exact (Action.runs_pure_pair_iff.mp hend).1
    rw [hlast, List.append_nil]
    exact hbuild recipe built hrecipe

/-- It is so of a rebuild if it is so of a poll as well. -/
theorem composes_rebuildDaemon (hP : Composes P) {answer : Except Fault Bool}
    (hpoll : ∀ poll polled, Action.Runs d.hasUpstreamChange.attempt poll polled → P poll)
    (hupdate : ∀ update updated, Action.Runs d.cloneSources.attempt update updated → P update)
    (hbuild : ∀ recipe built,
      Action.Runs (d.buildBinary buildName).attempt recipe built → P recipe)
    (h : Action.Runs (rebuildDaemon buildName d) trace (answer, d')) : P trace := by
  obtain ⟨poll, rest, polled, rfl, hpolled, hrest⟩ := Action.runs_bind_iff.mp h
  refine hP.append (hpoll poll polled hpolled) ?_
  rcases polled with fault | changed
  · obtain ⟨rfl, -, -⟩ := Action.runs_pure_pair_iff.mp hrest
    exact hP.nil
  cases changed with
  | false =>
    obtain ⟨rfl, -, -⟩ := Action.runs_pure_pair_iff.mp hrest
    exact hP.nil
  | true =>
    obtain ⟨build, last, ⟨built, d₁⟩, rfl, hrefresh, hend⟩ := Action.runs_bind_iff.mp hrest
    obtain ⟨rfl, -, -⟩ := Action.runs_pure_pair_iff.mp hend
    rw [List.append_nil]
    exact composes_refresh hP hupdate hbuild hrefresh

/-- What composes is so of a pass if it is so of each turn; if each turn keeps the tree of its
daemon, so does the pass. -/
theorem Tour.composes (hP : Composes P) {step : Nat → Daemon → Action (Except Fault α × Daemon)}
    {i : Nat} {log : Log} {answers : Except Fault (List α)} (h : Tour step i ds log answers ds')
    (hstep : ∀ i d, d ∈ ds → ∀ turn answer d', Action.Runs (step i d) turn (answer, d') →
      d'.project = d.project ∧ P turn) :
    P (Log.trace log) ∧ ds'.map (·.project) = ds.map (·.project) := by
  induction h with
  | nil => exact ⟨hP.nil, rfl⟩
  | failed hturn =>
    obtain ⟨hproject, hP'⟩ := hstep _ _ List.mem_cons_self _ _ _ hturn
    rw [Log.trace_entries, List.map_cons, List.map_cons, hproject]
    exact ⟨hP', rfl⟩
  | cons hturn _ ih =>
    obtain ⟨hproject, hP'⟩ := hstep _ _ List.mem_cons_self _ _ _ hturn
    obtain ⟨hlater, hprojects⟩ := ih fun i d hd => hstep i d (List.mem_cons_of_mem _ hd)
    rw [Log.trace_append, Log.trace_entries, List.map_cons, List.map_cons, hproject, hprojects]
    exact ⟨hP.append hP' hlater, rfl⟩

/-- Refreshing a daemon checks out what its tree tracks. -/
theorem checksOutIn_of_runs_refresh {outcome : Except Fault Unit}
    (h : Action.Runs (d.refresh buildName) trace (outcome, d')) :
    ∀ e ∈ trace, e.request.ChecksOutIn d.project.sites :=
  composes_refresh (.of_forall fun e => e.request.ChecksOutIn d.project.sites)
    (fun _ _ hupdate => Project.checksOutIn_of_runs_cloneSources hupdate)
    (fun _ _ hbuild e he => (checksOutIn_of_runs_buildBinary hbuild e he).mono (List.nil_subset _))
    h

/-- So does its turn in a rebuild pass. -/
theorem checksOutIn_of_runs_rebuildDaemon {answer : Except Fault Bool}
    (h : Action.Runs (rebuildDaemon buildName d) trace (answer, d')) :
    ∀ e ∈ trace, e.request.ChecksOutIn d.project.sites :=
  composes_rebuildDaemon (.of_forall fun e => e.request.ChecksOutIn d.project.sites)
    (fun _ _ hpoll e he =>
      (Project.checksOutIn_of_runs_hasUpstreamChange hpoll e he).mono (List.nil_subset _))
    (fun _ _ hupdate => Project.checksOutIn_of_runs_cloneSources hupdate)
    (fun _ _ hbuild e he => (checksOutIn_of_runs_buildBinary hbuild e he).mono (List.nil_subset _))
    h

/-- A pass checks out what the trees track if every turn does, and the daemons keep their trees. -/
theorem Tour.checksOutIn {step : Nat → Daemon → Action (Except Fault α × Daemon)} {i : Nat}
    {log : Log} {answers : Except Fault (List α)} (h : Tour step i ds log answers ds')
    (hstep : ∀ i d turn answer d', Action.Runs (step i d) turn (answer, d') →
      d'.project = d.project ∧ ∀ e ∈ turn, e.request.ChecksOutIn d.project.sites) :
    (∀ e ∈ Log.trace log, e.request.ChecksOutIn (Supervisor.sites ds)) ∧
      Supervisor.sites ds' = Supervisor.sites ds := by
  obtain ⟨hchecks, hprojects⟩ := h.composes
    (.of_forall fun e => e.request.ChecksOutIn (Supervisor.sites ds))
    fun i d hd turn answer d' hturn => by
      obtain ⟨hproject, hchecks⟩ := hstep i d turn answer d' hturn
      refine ⟨hproject, fun e he => (hchecks e he).mono ?_⟩
      exact fun x hx => List.mem_flatMap.mpr ⟨d, hd, hx⟩
  refine ⟨hchecks, ?_⟩
  have hsites : ∀ ds : List Daemon,
      Supervisor.sites ds = (ds.map (·.project)).flatMap Project.sites := by
    intro ds
    rw [List.flatMap_map]
    rfl
  rw [hsites, hsites, hprojects]

/-- Building all daemons checks out what is tracked. -/
theorem checksOutIn_of_runs_buildAll {outcome : Except Fault Unit}
    (h : Action.Runs (s.buildAll buildName) trace (outcome, s')) :
    (∀ e ∈ trace, e.request.ChecksOutIn (Supervisor.sites s.daemons)) ∧
      Supervisor.sites s'.daemons = Supervisor.sites s.daemons := by
  obtain ⟨log, answers, ds', rfl, htour, rfl, -⟩ := tour_of_runs_eachDaemonEffect h
  refine htour.checksOutIn fun _ d turn answer d' hturn => ⟨?_, checksOutIn_of_runs_refresh hturn⟩
  rw [(Turn.refreshed hturn).attended.same]

/-- So does a rebuild pass. -/
theorem checksOutIn_of_runs_rebuildChanged {answers : Except Fault (List Bool)}
    (h : Action.Runs (s.rebuildChanged buildName) trace (answers, s')) :
    (∀ e ∈ trace, e.request.ChecksOutIn (Supervisor.sites s.daemons)) ∧
      Supervisor.sites s'.daemons = Supervisor.sites s.daemons := by
  obtain ⟨log, ds', rfl, htour, rfl⟩ := tour_of_runs_eachDaemon h
  refine htour.checksOutIn fun _ d turn answer d' hturn =>
    ⟨?_, checksOutIn_of_runs_rebuildDaemon hturn⟩
  rw [(Turn.rebuilt hturn).attended.same]

/-- One rebuild pass after another. -/
def passes : List String → Supervisor → Action (Except Fault Unit × Supervisor)
  | [], s => pure (.ok (), s)
  | buildName :: rest, s => andThen (s.rebuildChanged buildName) fun _ s => passes rest s

/-- All daemons are built, and then there are some rebuild passes. -/
def buildAndPass (first : String) (buildNames : List String) (s : Supervisor) :
    Action (Except Fault Unit × Supervisor) :=
  andThen (s.buildAll first) fun _ s => passes buildNames s

/-- All passes check out what is tracked. -/
theorem checksOutIn_of_runs_passes {buildNames : List String} {outcome : Except Fault Unit}
    (h : Action.Runs (passes buildNames s) trace (outcome, s')) :
    ∀ e ∈ trace, e.request.ChecksOutIn (Supervisor.sites s.daemons) := by
  induction buildNames generalizing s trace with
  | nil =>
    obtain ⟨rfl, -, -⟩ := Action.runs_pure_pair_iff.mp h
    nofun
  | cons buildName rest ih =>
    rcases runs_andThen h with ⟨fault, hpass, -⟩ | ⟨pass, later, _, s₁, rfl, hpass, hlater⟩
    · exact (checksOutIn_of_runs_rebuildChanged hpass).1
    · obtain ⟨hchecks, hsites⟩ := checksOutIn_of_runs_rebuildChanged hpass
      refine List.forall_mem_append.mpr ⟨hchecks, ?_⟩
      rw [← hsites]
      exact ih hlater

theorem checksOutIn_of_runs_buildAndPass {first : String} {buildNames : List String}
    {outcome : Except Fault Unit}
    (h : Action.Runs (buildAndPass first buildNames s) trace (outcome, s')) :
    ∀ e ∈ trace, e.request.ChecksOutIn (Supervisor.sites s.daemons) := by
  rcases runs_andThen h with ⟨fault, hbuild, -⟩ | ⟨build, later, _, s₁, rfl, hbuild, hlater⟩
  · exact (checksOutIn_of_runs_buildAll hbuild).1
  · obtain ⟨hchecks, hsites⟩ := checksOutIn_of_runs_buildAll hbuild
    refine List.forall_mem_append.mpr ⟨hchecks, ?_⟩
    rw [← hsites]
    exact checksOutIn_of_runs_passes hlater

end Supervisor

/-! ## Pulls on the tracked branch -/

/-- Every directory has one tracked branch. -/
def OneBranchEach (sites : List Site) : Prop :=
  ∀ x ∈ sites, ∀ y ∈ sites, x.directory = y.directory → x.branch = y.branch

/-- Whenever one of the branches is used in its directory, the branch that was checked out last
there, if any, is this one. -/
def OnTrack (look : Path × List String → Option (Path × String)) (sites : List Site)
    (trace : List Exchange) : Prop :=
  ∀ before e after, trace = before ++ e :: after → ∀ x ∈ sites,
    e.request.sends.bind look = some (x.directory, x.branch) →
    ∀ branch ∈ lastCheckout x.directory before, branch = x.branch

/-- The directory in which there is no usable clone, according to the exchange. -/
def Exchange.deniedClone? : Exchange → Option Path
  | ⟨.isDirectory directory, false⟩ => some directory
  | ⟨.run directory ⟨"git", ["branch"]⟩, .ok output⟩ =>
    if (output.stdout.findSome? starredName).isSome then none else some directory
  | ⟨.run directory ⟨"git", ["branch"]⟩, .error _⟩ => some directory
  | _ => none

/-- Where something was checked out, there is a usable clone from then on. -/
def KeepsClones (trace : List Exchange) : Prop :=
  ∀ before e after, trace = before ++ e :: after →
    ∀ directory ∈ e.deniedClone?, lastCheckout directory before = none

instance : Decidable (OneBranchEach sites) :=
  inferInstanceAs (Decidable (∀ x ∈ sites, ∀ y ∈ sites, _ → _))

/-- What holds at every exchange, given what came before it, holds at every position. -/
theorem forall_exchange_iff_forall_lt {es : List Exchange} {P : List Exchange → Exchange → Prop} :
    (∀ i, (h : i < es.length) → P (es.take i) es[i]) ↔
      ∀ before e after, es = before ++ e :: after → P before e := by
  constructor
  · rintro h before e after rfl
    simpa using h before.length (by simp)
  · intro h i hi
    refine h _ _ (es.drop (i + 1)) ?_
    rw [List.cons_getElem_drop_succ, List.take_append_drop]

instance {look : Path × List String → Option (Path × String)} :
    Decidable (OnTrack look sites trace) :=
  decidable_of_iff _ (forall_exchange_iff_forall_lt (P := fun before e => ∀ x ∈ sites,
    e.request.sends.bind look = some (x.directory, x.branch) →
    ∀ branch ∈ lastCheckout x.directory before, branch = x.branch))

instance : Decidable (KeepsClones trace) :=
  decidable_of_iff _ (forall_exchange_iff_forall_lt (P := fun before e =>
    ∀ directory ∈ e.deniedClone?, lastCheckout directory before = none))

/-- If every directory has one tracked branch, whatever is used is on track. -/
theorem OneBranchEach.onTrack (h : OneBranchEach sites)
    (hchecks : ∀ e ∈ trace, e.request.ChecksOutIn sites)
    (look : Path × List String → Option (Path × String)) : OnTrack look sites trace := by
  rintro before e after rfl x hx - branch hlast
  have hbefore := (List.forall_mem_append.mp hchecks).1
  exact h _ (mem_of_lastCheckout hbefore hlast) x hx rfl

theorem OnTrack.left {look : Path × List String → Option (Path × String)}
    (h : OnTrack look sites (trace ++ rest)) : OnTrack look sites trace := by
  rintro before e after rfl
  exact h before e (after ++ rest) (by simp)

theorem KeepsClones.left (h : KeepsClones (trace ++ rest)) : KeepsClones trace := by
  rintro before e after rfl
  exact h before e (after ++ rest) (by simp)

/-! ## Branches that were visited -/

/-- In the directory of each of these branches that branch was checked out last. -/
def Tracks (visited : List Site) (trace : List Exchange) : Prop :=
  ∀ x ∈ visited, lastCheckout x.directory trace = some x.branch

/-- Branches that are tracked together have different directories. -/
theorem Tracks.oneBranchEach (h : Tracks sites trace) : OneBranchEach sites := by
  intro x hx y hy hsame
  have hbranch := h x hx
  rw [hsame, h y hy] at hbranch
  exact (Option.some.inj hbranch).symm

/-- Some branches are visited in order: if the pulls are on track and clones are kept, then what was
checked out before stays checked out, and so do these. -/
def Visiting (sites xs : List Site) (trace : List Exchange) : Prop :=
  ∀ before visited, Tracks visited before → OnTrack pull? sites (before ++ trace) →
    KeepsClones (before ++ trace) → Tracks (visited ++ xs) (before ++ trace)

namespace Visiting

variable {xs ys : List Site}

theorem append (h : Visiting sites xs trace) (h' : Visiting sites ys rest) :
    Visiting sites (xs ++ ys) (trace ++ rest) := by
  intro before visited htracks hontrack hkeeps
  rw [← List.append_assoc] at hontrack hkeeps ⊢
  rw [← List.append_assoc]
  exact h' _ _ (h _ _ htracks hontrack.left hkeeps.left) hontrack hkeeps

theorem of_checksOutIn_nil (h : ∀ e ∈ trace, e.request.ChecksOutIn []) :
    Visiting sites [] trace := by
  intro before visited htracks _ _ x hx
  rw [List.append_nil] at hx
  rw [lastCheckout_append_of_none h]
  exact htracks x hx

end Visiting

/-- A look for a usable clone, with what is exchanged and whether there is one. -/
inductive Git.Repository.Looked (r : Repository) : List Exchange → Bool → Prop where
  | missing : Looked r [⟨.isDirectory r.directory, false⟩] false
  | unusable {reply : Except Fault Output} :
    Exchange.deniedClone? ⟨.run r.directory ⟨"git", ["branch"]⟩, reply⟩ = some r.directory →
    Looked r [⟨.isDirectory r.directory, true⟩,
      ⟨.run r.directory ⟨"git", ["branch"]⟩, reply⟩] false
  | usable {output : Output} :
    Looked r [⟨.isDirectory r.directory, true⟩,
      ⟨.run r.directory ⟨"git", ["branch"]⟩, .ok output⟩] true

/-- There is a usable clone if the directory is there and git names a current branch. -/
theorem Git.Repository.looked_of_runs_isCloned {r : Repository} {cloned : Bool}
    (h : Action.Runs r.isCloned trace cloned) : r.Looked trace cloned := by
  cases runs_isCloned_iff.mp h with
  | missing => exact .missing
  | asked reply =>
    rcases reply with fault | output
    · exact .unusable rfl
    show r.Looked _ (output.stdout.findSome? starredName).isSome
    cases hname : output.stdout.findSome? starredName with
    | some name => exact .usable
    | none =>
      refine .unusable ?_
      simp only [Exchange.deniedClone?, hname, Option.isSome_none]
      rfl

/-- A look that finds no usable clone ends with what denies it. -/
theorem Git.Repository.Looked.exists_denial {r : Repository} {looking : List Exchange}
    (h : r.Looked looking false) :
    ∃ sooner denial, looking = sooner ++ [denial] ∧ denial.deniedClone? = some r.directory := by
  cases h with
  | missing => exact ⟨[], _, rfl, rfl⟩
  | unusable hdenied => exact ⟨[_], _, rfl, hdenied⟩

/-- Where clones are kept, a directory in which something was checked out has a usable one. -/
theorem cloned_of_runs_isCloned {r : Repository} {cloned : Bool}
    (h : Action.Runs r.isCloned trace cloned)
    (hkept : ∀ e ∈ trace, e.deniedClone? ≠ some r.directory) : cloned = true := by
  cases cloned with
  | true => rfl
  | false =>
    obtain ⟨sooner, denial, rfl, hdenied⟩ :=
      (Git.Repository.looked_of_runs_isCloned h).exists_denial
    exact absurd hdenied (hkept denial (List.mem_append_right _ (List.mem_singleton_self _)))

/-- A dialogue that cannot fail has as a task the same traces. -/
theorem runs_of_runs_lift {x : Action α} {a : α}
    (h : Action.Runs (Task.attempt (ExceptT.lift x)) trace (.ok a)) : Action.Runs x trace a := by
  unfold Task.attempt at h
  rw [ExceptT.run_lift, map_eq_pure_bind] at h
  obtain ⟨first, last, b, rfl, hfirst, hlast⟩ := Action.runs_bind_iff.mp h
  obtain ⟨rfl, hb⟩ := Action.runs_pure_iff.mp hlast
  rw [List.append_nil, Except.ok.inj hb]
  exact hfirst

/-- A pull begins with its command. -/
theorem exists_of_runs_pull {r : Repository} (h : Action.Runs r.pull.attempt trace (.ok ())) :
    ∃ reply rest,
      trace = ⟨.run r.directory ⟨"git", ["pull", "origin", r.branch]⟩, reply⟩ :: rest := by
  obtain ⟨first, second, _, rfl, hfirst, -⟩ := Task.runs_bind_ok_iff.mp h
  obtain ⟨command, last, output, rfl, hcommand, -⟩ := Task.runs_bind_ok_iff.mp hfirst
  obtain rfl := Action.runs_request_iff.mp hcommand
  exact ⟨_, _, rfl⟩

/-- An update of a repository visits its branch: if there was a checkout before, the update pulls,
so that checkout was of the same branch. -/
theorem visiting_of_runs_update {r : Repository} (hr : r.site ∈ sites)
    (h : Action.Runs (Task.attempt (do r.clone; r.checkout)) trace (.ok ())) :
    Visiting sites [r.site] trace := by
  have hshown := r.emits_update trace () h
  have hlast : ∀ directory, lastCheckout directory trace =
      if r.directory = directory then some r.branch else none := by
    intro directory
    unfold lastCheckout
    rw [hshown]
    by_cases hsame : r.directory = directory <;> simp [hsame]
  intro before visited htracks hontrack hkeeps
  -- What was checked out in the directory before was the same branch.
  have hbefore : ∀ branch, lastCheckout r.directory before = some branch → branch = r.branch := by
    intro branch hbranch
    obtain ⟨cloning, checkout, _, rfl, hclone, -⟩ := Task.runs_bind_ok_iff.mp h
    obtain ⟨looking, fetching, cloned, rfl, hlook, hfetch⟩ := Task.runs_bind_ok_iff.mp hclone
    have hsilent : ∀ e ∈ looking, e.request.ChecksOutIn [] := by
      refine Action.Only.of_runs (Task.Only.mono Repository.only_isCloned ?_) hlook
      rintro _ ⟨⟩ <;> exact Request.checksOutIn_of_none rfl
    obtain rfl : cloned = true := by
      refine cloned_of_runs_isCloned (runs_of_runs_lift hlook) fun e he hdenied => ?_
      obtain ⟨sooner, later, rfl⟩ := List.append_of_mem he
      have hnone := hkeeps (before ++ sooner) e (later ++ (fetching ++ checkout)) (by simp)
        r.directory hdenied
      rw [lastCheckout_append_of_none fun e he => hsilent e (List.mem_append_left _ he)] at hnone
      rw [hbranch] at hnone
      cases hnone
    obtain ⟨reply, rest, rfl⟩ := exists_of_runs_pull hfetch
    refine hontrack (before ++ looking)
      ⟨.run r.directory ⟨"git", ["pull", "origin", r.branch]⟩, reply⟩
      (rest ++ checkout) (by simp) r.site hr rfl branch ?_
    rw [lastCheckout_append_of_none hsilent]
    exact hbranch
  intro x hx
  rw [lastCheckout_append, hlast]
  by_cases hsame : r.directory = x.directory
  · rw [if_pos hsame, Option.some_or]
    rcases List.mem_append.mp hx with hx | hx
    · have hold := htracks x hx
      rw [← hsame] at hold
      rw [hbefore _ hold]
    · rw [List.mem_singleton.mp hx]
      rfl
  · rw [if_neg hsame, Option.none_or]
    rcases List.mem_append.mp hx with hx | hx
    · exact htracks x hx
    · rw [List.mem_singleton.mp hx] at hsame
      exact absurd rfl hsame

namespace Project

/-- The branches of a tree, in the order of updates. -/
def updateSites (p : Project) : List Site := p.dependenciesFirst.map (·.repository.site)

theorem mem_updateSites_iff {p : Project} {x : Site} : x ∈ p.updateSites ↔ x ∈ p.sites :=
  p.sites_perm.mem_iff.symm

/-- Updates of nodes visit their branches in order. -/
theorem visiting_of_carried {nodes : List Project}
    (hnodes : ∀ node ∈ nodes, node.repository.site ∈ sites)
    (h : (Conduct.ofTasks update).Carried nodes trace none) :
    Visiting sites (nodes.map (·.repository.site)) trace := by
  induction nodes generalizing trace with
  | nil =>
    cases h with
    | nil => exact .of_checksOutIn_nil nofun
  | cons node nodes ih =>
    cases h with
    | step hdone hrest =>
      obtain ⟨_, hpart⟩ := hdone
      rw [List.forall_mem_cons] at hnodes
      exact (visiting_of_runs_update hnodes.1 hpart).append (ih hnodes.2 hrest)

/-- An update of a tree visits its branches in order. -/
theorem visiting_of_runs_cloneSources {p : Project} (hsub : p.sites ⊆ sites)
    (h : Action.Runs p.cloneSources.attempt trace (.ok ())) :
    Visiting sites p.updateSites trace :=
  visiting_of_carried (fun _ hnode => hsub (mem_updateSites_iff.mp (List.mem_map_of_mem hnode)))
    (p.follows_update.ok trace () h).2

end Project

namespace Supervisor

variable {s s' : Supervisor} {ds ds' : List Daemon}

/-- The first builds of all daemons visit the branches of their trees in order. -/
theorem Tour.visiting {buildName : String} {i : Nat} {log : Log}
    {answers : Except Fault (List Unit)}
    (h : Tour (fun _ => (·.refresh buildName)) i ds log answers ds') (hok : ∃ as, answers = .ok as)
    (hsub : Supervisor.sites ds ⊆ sites) :
    Visiting sites (ds.flatMap (·.project.updateSites)) log.trace := by
  induction h with
  | nil => exact .of_checksOutIn_nil nofun
  | failed _ =>
    obtain ⟨as, hfault⟩ := hok
    cases hfault
  | @cons i d d' turn _ ds ds' log answers hturn _ ih =>
    obtain ⟨update, recipe, path, rfl, hrefreshed, -⟩ := Daemon.refreshed_of_runs_refresh hturn
    obtain ⟨as, hwhole⟩ := hok
    have hlater := exists_eq_ok_of_map hwhole.symm
    have hfirst : Visiting sites d.project.updateSites update :=
      Project.visiting_of_runs_cloneSources
        (fun x hx => hsub (List.subset_append_left _ _ hx)) hrefreshed.updated
    have hrecipe : Visiting sites [] recipe :=
      .of_checksOutIn_nil (checksOutIn_of_runs_buildBinary hrefreshed.built)
    have hrest := ih hlater fun x hx => hsub (List.subset_append_right _ _ hx)
    have hall := (hfirst.append hrecipe).append hrest
    rw [List.append_nil] at hall
    rw [Log.trace_append, Log.trace_entries]
    exact hall

/-- If all daemons are built with every pull on track and every clone kept, then every directory has
one tracked branch. -/
theorem oneBranchEach_of_runs_buildAll {buildName : String}
    (h : Action.Runs (s.buildAll buildName) trace (.ok (), s')) (hkeeps : KeepsClones trace)
    (hontrack : OnTrack pull? (Supervisor.sites s.daemons) trace) :
    OneBranchEach (Supervisor.sites s.daemons) := by
  obtain ⟨log, answers, ds', rfl, htour, -, hok⟩ := tour_of_runs_eachDaemonEffect h
  have htracks := htour.visiting (exists_eq_ok_of_map hok) (List.Subset.refl _) [] []
    (List.forall_mem_nil _) hontrack hkeeps
  have hvisited : ∀ x ∈ Supervisor.sites s.daemons,
      x ∈ [] ++ s.daemons.flatMap (·.project.updateSites) := by
    intro x hx
    obtain ⟨d, hd, hx⟩ := List.mem_flatMap.mp hx
    exact List.mem_flatMap.mpr ⟨d, hd, Project.mem_updateSites_iff.mpr hx⟩
  intro x hx y hy
  exact htracks.oneBranchEach x (hvisited x hx) y (hvisited y hy)

/-- All daemons are built, and then there are some rebuild passes.

* If every directory has one tracked branch, then, whatever the machine replies and however the run
  ends, every pull of a tracked branch and every look at its head finds that branch checked out, or
  comes before any checkout in its directory.
* If all of it succeeds, and what was checked out stays a usable clone, then every pull is on track
  only if every directory has one tracked branch. -/
theorem on_track_iff_oneBranchEach {first : String} {buildNames : List String}
    {outcome : Except Fault Unit}
    (h : Action.Runs (buildAndPass first buildNames s) trace (outcome, s')) :
    (OneBranchEach (Supervisor.sites s.daemons) →
      OnTrack pull? (Supervisor.sites s.daemons) trace ∧
      OnTrack lookUp? (Supervisor.sites s.daemons) trace) ∧
    (outcome = .ok () → KeepsClones trace → OnTrack pull? (Supervisor.sites s.daemons) trace →
      OneBranchEach (Supervisor.sites s.daemons)) := by
  constructor
  · intro hone
    have hchecks := checksOutIn_of_runs_buildAndPass h
    exact ⟨hone.onTrack hchecks pull?, hone.onTrack hchecks lookUp?⟩
  · rintro rfl hkeeps hontrack
    obtain ⟨build, later, _, s₁, rfl, hbuild, -⟩ := runs_andThen_ok h
    exact oneBranchEach_of_runs_buildAll hbuild hkeeps.left hontrack.left

/-! ## Two branches in one directory -/

/-- Two projects that track two branches of one repository, and a daemon of each. -/
def forkedSections : Sections :=
  { settings := { organization := "acme" }
    projects := ⟨[("next", { repository := "svc", branch := "dev", buildSystem := .make }),
      ("stable", { repository := "svc", buildSystem := .make })]⟩
    daemons := ⟨[("a", { project := "stable", executable := ⟨"bin/svcd"⟩ }),
      ("b", { project := "next", executable := ⟨"bin/svcd"⟩ })]⟩ }

/-- What is supervised with these sections. -/
def forkedConfig : Config :=
  { forkedSections with
    pollInterval := .ofSeconds 60
    stopPolicy := .default }

/-- The tree of the project that tracks the branch. -/
def forkedProject (name branch : String) : Project :=
  { name := name
    spec := { repository := "svc", branch := branch, buildSystem := .make }
    repository :=
      { parent := ⟨"."⟩
        name := "svc"
        branch := branch
        host := "github.com"
        organization := "acme" }
    dependencies := []
    privilegePrefix := ["sudo"]
    jobs := 1 }

/-- The supervisor of the two daemons. -/
def forked : Supervisor :=
  { coordinator := none
    daemons :=
      [.ofSpec "a" { project := "stable", executable := ⟨"bin/svcd"⟩ }
          (forkedProject "stable" "master") .default,
        .ofSpec "b" { project := "next", executable := ⟨"bin/svcd"⟩ }
          (forkedProject "next" "dev") .default]
    pollInterval := .ofSeconds 60 }

/-- A machine whose workspace is empty until something is cloned, and on which every command
succeeds; its state is the branch that is checked out. -/
def forkedMachine (q : Request) (current : Option String) : q.Reply × Option String :=
  match q with
  | .run _ command =>
    match command.arguments with
    | ["clone", _] => (.ok ⟨0, [], []⟩, some "master")
    | ["branch"] => (.ok ⟨0, current.toList.map ("* " ++ ·), []⟩, current)
    | ["checkout", branch] => (.ok ⟨0, [], []⟩, some branch)
    | ["rev-parse", reference] => (.ok ⟨0, ["head of " ++ reference], []⟩, current)
    | _ => (.ok ⟨0, [], []⟩, current)
  | .readFile _ => (.error .notFound, current)
  | .isDirectory _ => (current.isSome, current)
  | .isExecutable _ => (true, current)
  | .createDirectory _ => (.ok (), current)
  | .writeFile _ _ => (.ok (), current)
  | .spawn _ _ => (.ok 1, current)
  | .status _ => (.alive, current)
  | .signal _ _ => (.ok (), current)
  | .kill _ => (.ok (), current)
  | .sleep _ => ((), current)
  | .pause _ => (.elapsed, current)
  | .clock => (.ofSeconds 0, current)

/-- The first builds of the two daemons on that machine. -/
def forkedTrace : List Exchange :=
  Action.traceWith forkedMachine (buildAndPass "build-1" [] forked) none

/-- Neither of the two projects comes after the other. -/
theorem cycle?_forked : forkedSections.projects.graph.cycle? = none := by
  have hordered : forkedSections.projects.Ordered := by
    unfold ProjectTable.Ordered
    decide
  exact hordered.cycle?_eq_none (fun _ => 0) (by decide)

/-- The sections are valid, and the two daemons are the ones they describe. -/
theorem ofConfig_forked :
    forkedSections.validate = .ok forkedConfig ∧
      Supervisor.ofConfig forkedConfig 1 = .ok forked := by
  refine ⟨?_, rfl⟩
  unfold Sections.validate Sections.checkCycle
  rw [cycle?_forked]
  rfl

/-- The workspace starts out empty, every command succeeds, and so do the builds; but the second
daemon pulls its branch while that of the first is checked out. -/
theorem buildAll_pulls_into_other_branch :
    (forkedSections.validate = .ok forkedConfig ∧
      Supervisor.ofConfig forkedConfig 1 = .ok forked) ∧
    (∀ directory, forkedMachine (.isDirectory directory) none = (false, none)) ∧
    (∀ directory command current, ∃ output current',
      forkedMachine (.run directory command) current = (.ok output, current')) ∧
    (∃ s', Action.Runs (buildAndPass "build-1" [] forked) forkedTrace (.ok (), s')) ∧
    ¬ OnTrack pull? (Supervisor.sites forked.daemons) forkedTrace := by
  refine ⟨ofConfig_forked, fun _ => rfl, fun directory command current => ?_,
    ⟨_, Action.runs_traceWith forkedMachine (buildAndPass "build-1" [] forked) none⟩,
    by decide +kernel⟩
  simp only [forkedMachine]
  split <;> exact ⟨_, _, rfl⟩

/-- Two daemons of one project stay on track, and two of projects that track two branches of one
repository do not, although what they check out stays a usable clone. -/
theorem on_track_iff_oneBranchEach_pair_and_forked :
    (OneBranchEach (Supervisor.sites pair.daemons) ∧
      OnTrack pull? (Supervisor.sites pair.daemons)
        (Action.traceWith pairMachine (buildAndPass "build-1" ["build-2"] pair) false) ∧
      OnTrack lookUp? (Supervisor.sites pair.daemons)
        (Action.traceWith pairMachine (buildAndPass "build-1" ["build-2"] pair) false)) ∧
    (¬ OneBranchEach (Supervisor.sites forked.daemons) ∧ KeepsClones forkedTrace ∧
      ¬ OnTrack pull? (Supervisor.sites forked.daemons) forkedTrace) := by
  have hpair := on_track_iff_oneBranchEach
    (Action.runs_traceWith pairMachine (buildAndPass "build-1" ["build-2"] pair) false)
  have hforked := on_track_iff_oneBranchEach
    (Action.runs_traceWith forkedMachine (buildAndPass "build-1" [] forked) none)
  have hone : OneBranchEach (Supervisor.sites pair.daemons) := by decide +kernel
  have htwo : ¬ OneBranchEach (Supervisor.sites forked.daemons) := by decide +kernel
  have hkeeps : KeepsClones forkedTrace := by decide +kernel
  exact ⟨⟨hone, hpair.1 hone⟩, htwo, hkeeps, fun hontrack => htwo (hforked.2 rfl hkeeps hontrack)⟩

end Supervisor

end DaemonKeeper
