import DaemonKeeper.Proofs.TreeVisits
set_option autoImplicit false

/-!
# What the commit markers say (SPEC §2)

A build writes files of one kind, the commit markers of its configured projects.  What a marker says
is told twice: by the exchanges, in which each recipe writes at most its own marker, with the commit
that it has read before; and by the files that the machine keeps, where several markers may be one
file and the last of them stands.
-/

namespace DaemonKeeper

variable {α β σ π : Type}

/-! ## Files that are written -/

/-- The file that a request writes, and the text. -/
def Request.write? : Request → Option (Path × String)
  | .writeFile path text => some (path, text)
  | _ => none

/-- The writes of a trace in order, those that were refused among them. -/
def writes (trace : List Exchange) : List (Path × String) :=
  trace.filterMap (·.request.write?)

theorem writes_append (first second : List Exchange) :
    writes (first ++ second) = writes first ++ writes second :=
  List.filterMap_append

/-- The task writes nothing, whatever the machine replies. -/
abbrev Task.WritesNothing (t : Task α) : Prop := t.Only fun q => q.write? = none

/-- However a task ends, what it has written is the beginning of a list; it is the whole list if the
task succeeds. -/
structure Task.Writes (t : Task α) (texts : List (Path × String)) : Prop where
  beginning : ∀ trace outcome, Action.Runs t.attempt trace outcome → writes trace <+: texts
  whole : ∀ trace a, Action.Runs t.attempt trace (.ok a) → writes trace = texts

namespace Task.Writes

variable {texts more : List (Path × String)}

theorem nothing {t : Task α} (h : t.WritesNothing) : t.Writes [] := by
  have hnone : ∀ trace outcome, Action.Runs t.attempt trace outcome → writes trace = [] := by
    intro trace outcome hruns
    exact List.filterMap_eq_nil_iff.mpr (Action.Only.of_runs h hruns)
  exact ⟨fun trace outcome hruns => hnone trace outcome hruns ▸ List.prefix_refl _,
    fun trace a hruns => hnone trace (.ok a) hruns⟩

theorem bind {x : Task α} {f : α → Task β} (hx : x.Writes texts) (hf : ∀ a, (f a).Writes more) :
    (x >>= f).Writes (texts ++ more) where
  beginning trace outcome hruns := by
    rcases Task.runs_bind hruns with
      ⟨fault, hfirst, -⟩ | ⟨first, second, a, rfl, hfirst, hsecond⟩
    · exact (hx.beginning _ _ hfirst).trans (List.prefix_append _ _)
    · rw [writes_append, hx.whole _ _ hfirst]
      exact (List.prefix_append_right_inj texts).mpr ((hf a).beginning _ _ hsecond)
  whole trace b hruns := by
    obtain ⟨first, second, a, rfl, hfirst, hsecond⟩ := Task.runs_bind_ok_iff.mp hruns
    rw [writes_append, hx.whole _ _ hfirst, (hf a).whole _ _ hsecond]

/-- What writes nothing afterwards does not matter. -/
theorem bind_nothing {x : Task α} {f : α → Task β} (hx : x.Writes texts)
    (hf : ∀ a, (f a).WritesNothing) : (x >>= f).Writes texts := by
  have h := hx.bind fun a => nothing (hf a)
  rwa [List.append_nil] at h

/-- Neither does what writes nothing before. -/
theorem nothing_bind {x : Task α} {f : α → Task β} (hx : x.WritesNothing)
    (hf : ∀ a, (f a).Writes texts) : (x >>= f).Writes texts :=
  (nothing hx).bind hf

/-- One file. -/
theorem file (path : Path) (text : String) :
    (Task.ofIo (Action.request (.writeFile path text))).Writes [(path, text)] := by
  have hone : ∀ trace outcome, Action.Runs
      (Task.ofIo (Action.request (.writeFile path text))).attempt trace outcome →
      writes trace = [(path, text)] := by
    intro trace outcome hruns
    obtain ⟨reply, hreply, -⟩ := Task.runs_ofIo_iff.mp hruns
    obtain rfl := Action.runs_request_iff.mp hreply
    rfl
  exact ⟨fun trace outcome hruns => hone trace outcome hruns ▸ List.prefix_refl _,
    fun trace a hruns => hone trace (.ok a) hruns⟩

end Task.Writes

/-! ## What recipes write -/

namespace Build

theorem writesNothing_effect (directory : Path) (command : Command) :
    (effect directory command).WritesNothing := by
  have hrun : (Task.run directory command).WritesNothing := .run rfl
  exact hrun.bind fun _ => .pure ()

/-- A build directory gets a marker if there is a commit to say. -/
theorem Cmake.writes_prepare (b : Cmake) :
    b.prepare.Writes
      (if b.commit.isEmpty then [] else [(b.buildDir.join commitMarker, b.commit)]) := by
  refine .nothing_bind (.ofIo (.request rfl)) fun _ => ?_
  split
  · exact .nothing (.pure ())
  · exact .file _ _

/-- One without a commit gets none. -/
theorem Cmake.writesNothing_prepare {b : Cmake} (h : b.commit.isEmpty) :
    b.prepare.WritesNothing := by
  refine .bind (.ofIo (.request rfl)) fun _ => ?_
  rw [if_pos h]
  exact .pure ()

/-- The build of a vendored library writes no marker. -/
theorem Vendored.writesNothing_build (v : Vendored) (buildName : String) :
    (v.build buildName).WritesNothing := by
  refine (writesNothing_effect _ _).bind fun _ => ?_
  refine (Cmake.writesNothing_prepare rfl).bind fun _ => ?_
  refine (writesNothing_effect _ _).bind fun _ => ?_
  exact (writesNothing_effect _ _).bind fun _ => writesNothing_effect _ _

end Build

/-- What was exchanged in the recipe of one project of a tree, up to its end or its failure. -/
structure Recipe where
  project : Project
  exchanges : List Exchange

namespace Recipe

/-- The commit that a recipe has read: the only line that its first command printed, without the
white space around it. -/
def commit? (r : Recipe) : Option String :=
  match r.exchanges with
  | ⟨.run _ _, .ok ⟨_, [line], _⟩⟩ :: _ => some (Text.trim line)
  | _ => none

/-- The commit marker of the project. -/
def marker (r : Recipe) (buildName : String) : Path :=
  (r.project.outputDir buildName).join Build.commitMarker

/-- What is to be written: the marker of a configured project with the commit that was read, unless
it is blank. -/
def mark? (r : Recipe) (buildName : String) : Option (Path × String) :=
  match r.project.spec.buildSystem with
  | .make => none
  | .cmake => (r.commit?.filter (!·.isEmpty)).map fun commit => (r.marker buildName, commit)

/-- A recipe begins with its own look at the head, and writes nothing but its mark. -/
structure Truthful (r : Recipe) (buildName : String) : Prop where
  asks : ∃ reply rest, r.exchanges =
    ⟨.run r.project.repository.directory ⟨"git", ["rev-parse", r.project.spec.branch]⟩, reply⟩ ::
      rest
  written : writes r.exchanges <+: (r.mark? buildName).toList

/-- A recipe that was carried out has read a commit, and has written its mark if it has one. -/
structure Finished (r : Recipe) (buildName : String) : Prop where
  read : r.commit?.isSome
  wrote : writes r.exchanges = (r.mark? buildName).toList

/-- It is the commit that git was understood to name. -/
theorem commit?_of_singleLine {p : Project} {directory : Path} {command : Command}
    {output : Output} {rest : List Exchange} {reference commit : String}
    (h : Git.singleLine reference output = .ok commit) :
    commit? ⟨p, ⟨.run directory command, .ok output⟩ :: rest⟩ = some commit := by
  obtain ⟨code, stdout, stderr⟩ := output
  unfold Git.singleLine at h
  split at h
  · rename_i line hline
    obtain rfl : stdout = [line] := hline
    exact congrArg some (Except.ok.inj h)
  · cases h

end Recipe

namespace Project

variable (p : Project) (buildName : String)

/-- What a project is to write when its commit is known. -/
def marksOf (commit : String) : List (Path × String) :=
  match p.spec.buildSystem with
  | .make => []
  | .cmake =>
    if commit.isEmpty then [] else [((p.outputDir buildName).join Build.commitMarker, commit)]

theorem writesNothing_buildVendored (relatives : List String) :
    (p.buildVendored buildName relatives).WritesNothing := by
  induction relatives with
  | nil => exact .pure ()
  | cons relative rest ih =>
    exact ((p.vendoredLibrary relative).writesNothing_build buildName).bind fun _ => ih

/-- The build of the project itself writes its marker. -/
theorem writes_buildSelf (commit : String) :
    (p.buildSelf buildName commit).Writes (p.marksOf buildName commit) := by
  unfold buildSelf marksOf
  cases p.spec.buildSystem with
  | cmake =>
    refine (p.cmakeBuild buildName commit).writes_prepare.bind_nothing fun _ => ?_
    refine (Build.writesNothing_effect _ _).bind fun _ => ?_
    refine (Build.writesNothing_effect _ _).bind fun _ => ?_
    exact .ite (Build.writesNothing_effect _ _) (.pure ())
  | make =>
    refine .nothing ((Build.writesNothing_effect _ _).bind fun _ => ?_)
    exact .ite (Build.writesNothing_effect _ _) (.pure ())

/-- With the commit that a recipe has read, these are its marks. -/
theorem marksOf_eq_mark? {r : Recipe} {commit : String} (h : r.commit? = some commit) :
    r.project.marksOf buildName commit = (r.mark? buildName).toList := by
  unfold marksOf Recipe.mark?
  rw [h]
  cases r.project.spec.buildSystem with
  | make => rfl
  | cmake => cases hempty : commit.isEmpty <;> simp [hempty, Recipe.marker, Option.filter]

variable {p buildName} {trace : List Exchange} {outcome : Except Fault Path}

/-- A recipe looks its commit up, and what it writes then is its mark. -/
theorem recipe_of_runs_buildOwn (h : Action.Runs (p.buildOwn buildName).attempt trace outcome) :
    Recipe.Truthful ⟨p, trace⟩ buildName ∧
      ∀ path, outcome = .ok path → Recipe.Finished ⟨p, trace⟩ buildName := by
  unfold buildOwn Git.Repository.headCommit at h
  rw [bind_assoc] at h
  rcases Task.runs_bind h with ⟨fault, hgit, rfl⟩ | ⟨first, second, output, rfl, hgit, hrest⟩
  · obtain rfl := Action.runs_request_iff.mp hgit
    exact ⟨⟨⟨_, _, rfl⟩, List.nil_prefix⟩, nofun⟩
  obtain rfl := Action.runs_request_iff.mp hgit
  rcases Task.runs_bind hrest with ⟨fault, hline, rfl⟩ | ⟨none', later, commit, rfl, hline, hlater⟩
  · obtain ⟨rfl, -⟩ := Action.runs_done_iff.mp hline
    exact ⟨⟨⟨_, _, rfl⟩, List.nil_prefix⟩, nofun⟩
  obtain ⟨rfl, hcommit⟩ := Action.runs_done_iff.mp hline
  -- The commit is known: what is left writes its marks.
  have hread : Recipe.commit? ⟨p, [⟨.run p.repository.directory
      ⟨"git", ["rev-parse", p.spec.branch]⟩, .ok output⟩] ++ ([] ++ later)⟩ = some commit :=
    Recipe.commit?_of_singleLine hcommit.symm
  have hwrites := Task.Writes.nothing_bind
    (p.writesNothing_buildVendored buildName p.spec.vendored) fun _ =>
      (p.writes_buildSelf buildName commit).bind_nothing fun _ => .pure (p.outputDir buildName)
  have hmarks := marksOf_eq_mark? buildName hread
  refine ⟨⟨⟨_, _, rfl⟩, ?_⟩, ?_⟩
  · rw [← hmarks]
    exact hwrites.beginning later outcome hlater
  · rintro path rfl
    refine ⟨Option.isSome_of_eq_some hread, ?_⟩
    rw [← hmarks]
    exact hwrites.whole later path hlater

/-- The recipes of projects in order, up to the first that fails. -/
theorem exists_recipes_of_carried {nodes : List Project} {stopped : Option Fault}
    (h : (Conduct.ofTasks (·.buildOwn buildName)).Carried nodes trace stopped) :
    ∃ recipes : List Recipe, recipes.map (·.project) <+: nodes ∧
      trace = recipes.flatMap (·.exchanges) ∧ (∀ r ∈ recipes, r.Truthful buildName) ∧
      (stopped = none →
        recipes.map (·.project) = nodes ∧ ∀ r ∈ recipes, r.Finished buildName) := by
  induction h with
  | nil => exact ⟨[], List.prefix_refl _, rfl, nofun, fun _ => ⟨rfl, nofun⟩⟩
  | @step node nodes first rest stopped hdone _ ih =>
    obtain ⟨path, hrun⟩ := hdone
    obtain ⟨htruthful, hfinished⟩ := recipe_of_runs_buildOwn hrun
    obtain ⟨recipes, hnodes, rfl, htruthfuls, hall⟩ := ih
    refine ⟨⟨node, first⟩ :: recipes, ?_, rfl, List.forall_mem_cons.mpr ⟨htruthful, htruthfuls⟩,
      fun hnone => ⟨?_, ?_⟩⟩
    · exact (List.prefix_cons_inj node).mpr hnodes
    · rw [List.map_cons, (hall hnone).1]
    · exact List.forall_mem_cons.mpr ⟨hfinished path rfl, (hall hnone).2⟩
  | @stop node nodes trace fault hstops =>
    refine ⟨[⟨node, trace⟩], ?_, (List.append_nil trace).symm, ?_, nofun⟩
    · exact (List.prefix_cons_inj node).mpr List.nil_prefix
    · exact List.forall_mem_singleton.mpr (recipe_of_runs_buildOwn hstops).1

end Project

/-! ## Refused writes -/

/-- The file of a write that was refused. -/
def Exchange.refused? : Exchange → Option Path
  | ⟨.writeFile path _, .error _⟩ => some path
  | _ => none

/-- A refused write is the last exchange of a trace, and there is no other. -/
def RefusedLast (trace : List Exchange) (e : Exchange) : Prop :=
  ∃ before, trace = before ++ [e] ∧ ∀ e' ∈ before, e'.refused? = none

namespace BuildStep

variable {s : BuildStep} {part : List Exchange} {fault : Fault}

/-- In a step that is done no write is refused. -/
theorem refused?_of_done (h : Done s part) : ∀ e ∈ part, e.refused? = none := by
  cases h with
  | command => exact List.forall_mem_singleton.mpr rfl
  | lookUp _ => exact List.forall_mem_singleton.mpr rfl
  | created => exact List.forall_mem_singleton.mpr rfl
  | marked => exact List.forall_mem_cons.mpr ⟨rfl, List.forall_mem_singleton.mpr rfl⟩

/-- A write that is refused stops the recipe. -/
theorem refusedLast_of_stops (h : Stops s part fault) :
    ∀ e ∈ part, e.refused? ≠ none → RefusedLast part e ∧ ∃ cause, fault = .io cause := by
  cases h with
  | command => exact List.forall_mem_singleton.mpr fun hrefused => absurd rfl hrefused
  | lookUp => exact List.forall_mem_singleton.mpr fun hrefused => absurd rfl hrefused
  | ambiguous _ => exact List.forall_mem_singleton.mpr fun hrefused => absurd rfl hrefused
  | notCreated => exact List.forall_mem_singleton.mpr fun hrefused => absurd rfl hrefused
  | @notMarked directory text cause =>
    rw [List.forall_mem_cons, List.forall_mem_singleton]
    refine ⟨fun hrefused => absurd rfl hrefused, fun _ => ⟨⟨[_], rfl, ?_⟩, cause, rfl⟩⟩
    exact List.forall_mem_singleton.mpr rfl

/-- In a plan that is carried out to its end none is. -/
theorem refused?_of_carried {plan : List BuildStep} (h : conduct.Carried plan part none) :
    ∀ e ∈ part, e.refused? = none := by
  have hnone : part.filterMap Exchange.refused? = plan.filterMap fun _ => (none : Option Path) :=
    h.filterMap_eq fun s t hdone => List.filterMap_eq_nil_iff.mpr (refused?_of_done hdone)
  rw [List.filterMap_eq_nil_iff.mpr fun _ _ => rfl] at hnone
  exact List.filterMap_eq_nil_iff.mp hnone

end BuildStep

/-- A write that is refused ends a build with the refusal. -/
theorem Project.refusedLast_of_runs_build {p : Project} {buildName : String}
    {trace : List Exchange} {outcome : Except Fault Path}
    (h : Action.Runs (p.build buildName).attempt trace outcome) :
    ∀ e ∈ trace, e.refused? ≠ none →
      RefusedLast trace e ∧ ∃ cause, outcome = .error (.io cause) := by
  intro e he hrefused
  cases outcome with
  | ok path =>
    have hcarried := ((p.follows_build buildName).ok trace path h).2
    exact absurd (BuildStep.refused?_of_carried hcarried e he) hrefused
  | error fault =>
    obtain ⟨done, last, left, hstopped⟩ :=
      ((p.follows_build buildName).error trace fault h).exists_stoppedAt
    obtain ⟨before, final, rfl, hbefore, hstops⟩ := hstopped.carried
    -- Every step before the one that stopped the recipe was done, so the refusal is in that one.
    have hquiet := BuildStep.refused?_of_carried hbefore
    rcases List.mem_append.mp he with hearly | hlate
    · exact absurd (hquiet e hearly) hrefused
    obtain ⟨⟨first, rfl, hfirst⟩, cause, rfl⟩ :=
      BuildStep.refusedLast_of_stops hstops e hlate hrefused
    refine ⟨⟨before ++ first, (List.append_assoc ..).symm, ?_⟩, cause, rfl⟩
    exact List.forall_mem_append.mpr ⟨hquiet, hfirst⟩

/-! ## What the files say -/

/-- The last text that a list of writes puts into a file, where paths lead to places. -/
def lastText [DecidableEq π] (place : Path → π) (file : π) : List (Path × String) → Option String
  | [] => none
  | (path, text) :: rest =>
    (lastText place file rest).or (if place path = file then some text else none)

theorem lastText_append [DecidableEq π] (place : Path → π) (file : π)
    (first second : List (Path × String)) :
    lastText place file (first ++ second) =
      (lastText place file second).or (lastText place file first) := by
  induction first with
  | nil => exact Option.or_none.symm
  | cons entry first ih =>
    obtain ⟨path, text⟩ := entry
    show (lastText place file (first ++ second)).or _ = _
    rw [ih, Option.or_assoc]
    rfl

/-- The files of a machine.  Paths lead to places, which no request changes; a file that was written
says what was written into it, and creating a directory or writing another file leaves it as it is.
-/
structure KeepsFiles (machine : (q : Request) → σ → q.Reply × σ) (place : Path → π)
    (content : σ → π → Option String) : Prop where
  written {path : Path} {text : String} {s : σ} :
    (machine (.writeFile path text) s).1 = .ok () →
    content (machine (.writeFile path text) s).2 (place path) = some text
  others {path : Path} {text : String} {s : σ} {file : π} :
    place path ≠ file → content (machine (.writeFile path text) s).2 file = content s file
  created {directory : Path} {s : σ} {file : π} :
    content (machine (.createDirectory directory) s).2 file = content s file

/-- No command changes the file. -/
def Spares (machine : (q : Request) → σ → q.Reply × σ) (content : σ → π → Option String)
    (file : π) : Prop :=
  ∀ directory command s, content (machine (.run directory command) s).2 file = content s file

/-- No write into the file was refused. -/
def Unrefused (place : Path → π) (file : π) (trace : List Exchange) : Prop :=
  ∀ e ∈ trace, ∀ path, e.refused? = some path → place path ≠ file

section

variable {machine : (q : Request) → σ → q.Reply × σ} {place : Path → π}
variable {content : σ → π → Option String} {file : π}

/-- A request of a recipe puts into a file what it writes, and leaves it as it is otherwise. -/
theorem KeepsFiles.content_of_asks [DecidableEq π] (hfiles : KeepsFiles machine place content)
    (hspares : Spares machine content file) {step : BuildStep} {q : Request} {s : σ}
    (hasks : step.Asks q) (hdone : Unrefused place file [⟨q, (machine q s).1⟩]) :
    content (machine q s).2 file =
      (lastText place file (writes [⟨q, (machine q s).1⟩])).or (content s file) := by
  cases hasks with
  | command => exact hspares _ _ s
  | lookUp => exact hspares _ _ s
  | create => exact hfiles.created
  | @mark directory text =>
    show _ = (Option.or none (if place (directory.join "commit") = file then some text else none)).or
      (content s file)
    rw [Option.none_or]
    split
    · rename_i hplace
      cases hreply : (machine (.writeFile (directory.join "commit") text) s).1 with
      | error cause =>
        refine absurd hplace (hdone _ (List.mem_singleton_self _) _ ?_)
        rw [hreply]
        rfl
      | ok =>
        rw [← hplace]
        exact hfiles.written hreply
    · rename_i hplace
      exact hfiles.others hplace

/-- After a dialogue of such requests a file says what was last written into it, and what it said
before if nothing was. -/
theorem KeepsFiles.content_of_runWith [DecidableEq π] (hfiles : KeepsFiles machine place content)
    (hspares : Spares machine content file) {x : Action α} {s : σ}
    (hasks : ∀ e ∈ Action.traceWith machine x s, ∃ step : BuildStep, step.Asks e.request)
    (hdone : Unrefused place file (Action.traceWith machine x s)) :
    content (Action.runWith machine x s).2 file =
      (lastText place file (writes (Action.traceWith machine x s))).or (content s file) := by
  induction x generalizing s with
  | done a => rfl
  | ask q k ih =>
    obtain ⟨⟨step, hstep⟩, hrest⟩ := List.forall_mem_cons.mp hasks
    obtain ⟨hfirst, hlater⟩ := List.forall_mem_cons.mp hdone
    show content (Action.runWith machine (k (machine q s).1) (machine q s).2).2 file =
      (lastText place file (writes ([⟨q, (machine q s).1⟩] ++
        Action.traceWith machine (k (machine q s).1) (machine q s).2))).or (content s file)
    -- What the rest writes stands over what this request writes, and that over the old text.
    rw [ih _ hrest hlater, writes_append, lastText_append, Option.or_assoc,
      hfiles.content_of_asks hspares hstep (List.forall_mem_singleton.mpr hfirst)]

end

/-! ## Which recipe a file speaks of -/

/-- The recipe wrote nothing into the file. -/
def Recipe.Leaves (place : Path → π) (file : π) (r : Recipe) : Prop :=
  ∀ mark ∈ writes r.exchanges, place mark.1 ≠ file

/-- Of these recipes, one was the last to write its marker where the marker is this file, and wrote
the commit that it had read. -/
structure MarkedLast (place : Path → π) (file : π) (buildName : String) (recipes : List Recipe)
    (last : Recipe) (commit : String) : Prop where
  split : ∃ before after, recipes = before ++ last :: after ∧ ∀ r ∈ after, r.Leaves place file
  read : last.commit? = some commit
  wrote : writes last.exchanges = [(last.marker buildName, commit)]
  here : place (last.marker buildName) = file

section

variable {place : Path → π} {file : π} {buildName : String} {recipes : List Recipe} {r : Recipe}

/-- A mark is the marker of the project with the commit that was read. -/
theorem Recipe.mark?_eq_some_iff {mark : Path × String} :
    r.mark? buildName = some mark ↔ r.project.spec.buildSystem = .cmake ∧
      mark.1 = r.marker buildName ∧ r.commit? = some mark.2 ∧ mark.2 ≠ "" := by
  obtain ⟨path, commit⟩ := mark
  unfold mark?
  cases r.project.spec.buildSystem with
  | make => simp
  | cmake =>
    simp only [Option.map_eq_some_iff, Option.filter_eq_some_iff, Prod.mk.injEq]
    constructor
    · rintro ⟨commit', ⟨hread, hne⟩, rfl, rfl⟩
      exact ⟨trivial, rfl, hread, by simpa using hne⟩
    · rintro ⟨-, rfl, hread, hne⟩
      exact ⟨commit, ⟨hread, by simpa using hne⟩, rfl, rfl⟩

/-- A recipe has written nothing, or its mark. -/
theorem Recipe.Truthful.writes_cases (h : r.Truthful buildName) :
    writes r.exchanges = [] ∨ ∃ commit, r.commit? = some commit ∧
      writes r.exchanges = [(r.marker buildName, commit)] := by
  have hwrites := h.written
  cases hmark : r.mark? buildName with
  | none =>
    rw [hmark] at hwrites
    exact .inl (List.prefix_nil.mp hwrites)
  | some mark =>
    rw [hmark, Option.toList_some, List.prefix_cons_iff] at hwrites
    obtain ⟨-, hplace, hread, -⟩ := Recipe.mark?_eq_some_iff.mp hmark
    refine hwrites.imp_right fun ⟨rest, hwrote, hrest⟩ => ⟨mark.2, hread, ?_⟩
    rw [hwrote, List.prefix_nil.mp hrest, ← hplace]

theorem MarkedLast.cons {last : Recipe} {commit : String}
    (h : MarkedLast place file buildName recipes last commit) :
    MarkedLast place file buildName (r :: recipes) last commit where
  split := by
    obtain ⟨before, after, rfl, hafter⟩ := h.split
    exact ⟨r :: before, after, rfl, hafter⟩
  read := h.read
  wrote := h.wrote
  here := h.here

/-- The last text that recipes put into a file is the commit of the last recipe whose marker it is.
-/
theorem lastText_recipes [DecidableEq π] (place : Path → π) (file : π)
    (h : ∀ r ∈ recipes, r.Truthful buildName) :
    ((∀ r ∈ recipes, r.Leaves place file) ∧
        lastText place file (writes (recipes.flatMap (·.exchanges))) = none) ∨
      ∃ last commit, MarkedLast place file buildName recipes last commit ∧
        lastText place file (writes (recipes.flatMap (·.exchanges))) = some commit := by
  induction recipes with
  | nil => exact .inl ⟨nofun, rfl⟩
  | cons r recipes ih =>
    obtain ⟨hr, hrest⟩ := List.forall_mem_cons.mp h
    rw [List.flatMap_cons, writes_append, lastText_append]
    -- The first recipe counts only if the later ones have left the file.
    rcases ih hrest with ⟨hleaves, hnone⟩ | ⟨last, commit, hlast, hsome⟩
    · rw [hnone, Option.none_or, List.forall_mem_cons]
      rcases hr.writes_cases with hnothing | ⟨commit, hread, hwrote⟩
      · refine .inl ⟨⟨fun mark hmark => ?_, hleaves⟩, by rw [hnothing]; rfl⟩
        rw [hnothing] at hmark
        cases hmark
      by_cases hplace : place (r.marker buildName) = file
      · refine .inr ⟨r, commit, ⟨⟨[], recipes, rfl, hleaves⟩, hread, hwrote, hplace⟩, ?_⟩
        rw [hwrote]
        exact if_pos hplace
      · refine .inl ⟨⟨fun mark hmark => ?_, hleaves⟩, ?_⟩
        · rw [hwrote, List.mem_singleton] at hmark
          rwa [hmark]
        · rw [hwrote]
          exact if_neg hplace
    · refine .inr ⟨last, commit, hlast.cons, ?_⟩
      rw [hsome, Option.some_or]

end

/-! ## Builds -/

/-- The recipes of a build tell its exchanges.  They are those of the first projects of the plan,
and of all of them if the build succeeds; each begins with its look at the head and writes at most
the mark of its project, and in a build that succeeds has read a commit and written the mark.  A
write that is refused is the last exchange of all, and the fault of the build. -/
structure Project.Told (p : Project) (buildName : String) (recipes : List Recipe)
    (trace : List Exchange) (outcome : Except Fault Path) : Prop where
  nodes : recipes.map (·.project) <+: p.dependenciesFirst
  exchanges : trace = recipes.flatMap (·.exchanges)
  truthful : ∀ r ∈ recipes, r.Truthful buildName
  refused : ∀ e ∈ trace, e.refused? ≠ none →
    RefusedLast trace e ∧ ∃ cause, outcome = .error (.io cause)
  complete : ∀ path, outcome = .ok path →
    recipes.map (·.project) = p.dependenciesFirst ∧ ∀ r ∈ recipes, r.Finished buildName

namespace Project

variable {p : Project} {buildName : String} {trace : List Exchange} {outcome : Except Fault Path}

/-- Whatever the machine replies, there are such recipes. -/
theorem exists_told (h : Action.Runs (p.build buildName).attempt trace outcome) :
    ∃ recipes, p.Told buildName recipes trace outcome := by
  have hrefused := refusedLast_of_runs_build h
  cases outcome with
  | ok path =>
    obtain ⟨-, hcarried⟩ := (p.follows_recipe buildName).ok trace path h
    obtain ⟨recipes, hnodes, htrace, htruthful, hall⟩ := exists_recipes_of_carried hcarried
    exact ⟨recipes, hnodes, htrace, htruthful, hrefused, fun _ _ => hall rfl⟩
  | error fault =>
    have hcarried := (p.follows_recipe buildName).error trace fault h
    obtain ⟨recipes, hnodes, htrace, htruthful, -⟩ := exists_recipes_of_carried hcarried
    exact ⟨recipes, hnodes, htrace, htruthful, hrefused, nofun⟩

/-- A build that succeeds was refused no write. -/
theorem Told.unrefused {recipes : List Recipe} {path : Path} (place : Path → π) (file : π)
    (h : p.Told buildName recipes trace (.ok path)) : Unrefused place file trace := by
  intro e he path' hpath'
  have hne : e.refused? ≠ none := by
    rw [hpath']
    exact Option.some_ne_none path'
  obtain ⟨-, cause, hcause⟩ := h.refused e he hne
  cases hcause

/-- In a build that succeeds every configured project has written its commit, unless it is blank. -/
theorem Told.marker_written {recipes : List Recipe} {path : Path} {r : Recipe}
    (h : p.Told buildName recipes trace (.ok path)) (hr : r ∈ recipes)
    (hcmake : r.project.spec.buildSystem = .cmake) (hblank : r.commit? ≠ some "") :
    ∃ commit, (r.marker buildName, commit) ∈ writes r.exchanges := by
  obtain ⟨hread, hwrote⟩ := (h.complete path rfl).2 r hr
  obtain ⟨commit, hcommit⟩ := Option.isSome_iff_exists.mp hread
  refine ⟨commit, ?_⟩
  rw [hwrote, Option.mem_toList, Recipe.mark?_eq_some_iff]
  refine ⟨hcmake, rfl, hcommit, ?_⟩
  rintro rfl
  exact hblank hcommit

variable {machine : (q : Request) → σ → q.Reply × σ} {place : Path → π}
variable {content : σ → π → Option String}

/-- After a build a file says what it said before, or what the last of the recipes has written whose
marker it is. -/
theorem Told.file_cases {recipes : List Recipe} {file : π} {s s' : σ}
    (h : p.Told buildName recipes (Action.traceWith machine (p.build buildName).attempt s) outcome)
    (hfiles : KeepsFiles machine place content)
    (hrun : Action.runWith machine (p.build buildName).attempt s = (outcome, s'))
    (hspares : Spares machine content file)
    (hdone : Unrefused place file (Action.traceWith machine (p.build buildName).attempt s)) :
    ((∀ r ∈ recipes, r.Leaves place file) ∧ content s' file = content s file) ∨
      ∃ last commit, MarkedLast place file buildName recipes last commit ∧
        content s' file = some commit := by
  classical
  have hasks : ∀ e ∈ Action.traceWith machine (p.build buildName).attempt s,
      ∃ step : BuildStep, step.Asks e.request := by
    intro e he
    obtain ⟨step, -, hstep⟩ :=
      (p.follows_build buildName).asks (Action.runs_traceWith machine _ s) e he
    exact ⟨step, hstep⟩
  have hcontent := hfiles.content_of_runWith hspares hasks hdone
  rw [hrun, h.exchanges] at hcontent
  rcases lastText_recipes place file h.truthful with
    ⟨hleaves, hnone⟩ | ⟨last, commit, hlast, hsome⟩
  · rw [hnone, Option.none_or] at hcontent
    exact .inl ⟨hleaves, hcontent⟩
  · rw [hsome, Option.some_or] at hcontent
    exact .inr ⟨last, commit, hlast, hcontent⟩

/-- The files after a build on a machine that keeps files.  What recipes exchange is told by
`Told`, and vendored libraries write nothing.  A file that no command changes, and into which no
write was refused, says what it said before if no recipe has written its marker there, and otherwise
the commit that the last recipe read whose marker it is.  If the build succeeds, there is such a
recipe for the marker of every configured project whose commit is not blank. -/
theorem marker_tells_commit (hfiles : KeepsFiles machine place content) {s s' : σ}
    (hrun : Action.runWith machine (p.build buildName).attempt s = (outcome, s')) :
    ∃ recipes,
      p.Told buildName recipes (Action.traceWith machine (p.build buildName).attempt s) outcome ∧
      (∀ vendored : Build.Vendored, (vendored.build buildName).WritesNothing) ∧
      (∀ file, Spares machine content file →
        Unrefused place file (Action.traceWith machine (p.build buildName).attempt s) →
        ((∀ r ∈ recipes, r.Leaves place file) ∧ content s' file = content s file) ∨
          ∃ last commit, MarkedLast place file buildName recipes last commit ∧
            content s' file = some commit) ∧
      ∀ path, outcome = .ok path → ∀ r ∈ recipes, r.project.spec.buildSystem = .cmake →
        r.commit? ≠ some "" → Spares machine content (place (r.marker buildName)) →
        ∃ last commit,
          MarkedLast place (place (r.marker buildName)) buildName recipes last commit ∧
            content s' (place (r.marker buildName)) = some commit := by
  have hruns := Action.runs_traceWith machine (p.build buildName).attempt s
  rw [hrun] at hruns
  obtain ⟨recipes, htold⟩ := exists_told hruns
  refine ⟨recipes, htold, fun vendored => vendored.writesNothing_build buildName,
    fun file hspares hdone => htold.file_cases hfiles hrun hspares hdone, ?_⟩
  rintro path rfl r hr hcmake hblank hspares
  rcases htold.file_cases hfiles hrun hspares (htold.unrefused place _) with
    ⟨hleaves, -⟩ | hlast
  · obtain ⟨commit, hwritten⟩ := htold.marker_written hr hcmake hblank
    exact absurd rfl (hleaves r hr _ hwritten)
  · exact hlast

/-! ## Two branches in one checkout, and a marker that is a link -/

/-- A machine that keeps one text for each place, and on which everything succeeds.  A command
prints what is told for its last argument. -/
def filingMachine (place : Path → Path) (tells : String → String) (q : Request)
    (files : Path → Option String) : q.Reply × (Path → Option String) :=
  match q with
  | .run _ command => (.ok (.ofLines [tells (command.arguments.getLastD "")]), files)
  | .writeFile path text =>
    (.ok (), fun file => if place path = file then some text else files file)
  | q => ((Config.steadyMachine q ()).1, files)

theorem keepsFiles_filingMachine (place : Path → Path) (tells : String → String) :
    KeepsFiles (filingMachine place tells) place fun files file => files file where
  written _ := if_pos rfl
  others hplace := if_neg hplace
  created := rfl

theorem spares_filingMachine (place : Path → Path) (tells : String → String) (file : Path) :
    Spares (filingMachine place tells) (fun files file => files file) file :=
  fun _ _ _ => rfl

/-- A configured project of the repository `svc`, on a branch. -/
def branchProject (name branch : String) (dependencies : List Project) : Project :=
  { name
    spec := { repository := "svc", branch }
    repository :=
      { parent := ⟨"."⟩, name := "svc", branch, host := "github.com", organization := "acme" }
    dependencies
    privilegePrefix := []
    jobs := 1 }

/-- The project of the branch `dev`, after that of the branch `master`. -/
def branchTree : Project := branchProject "next" "dev" [branchProject "stable" "master" []]

/-- The branches have different heads. -/
def branchHead (reference : String) : String := if reference = "master" then "aaa" else "bbb"

/-- Both write the same marker, which says in the end what the second has read. -/
theorem marker_tells_commit_branches :
    ∃ files recipes,
      KeepsFiles (filingMachine id branchHead) id (fun files file => files file) ∧
      Action.runWith (filingMachine id branchHead) (branchTree.build "b").attempt (fun _ => none) =
        (.ok ⟨"./svc/b"⟩, files) ∧
      recipes.map (·.project.name) = ["stable", "next"] ∧
      (∃ last, MarkedLast id ⟨"./svc/b/commit"⟩ "b" recipes last "bbb") ∧
      files ⟨"./svc/b/commit"⟩ = some "bbb" := by
  have hkeeps := keepsFiles_filingMachine id branchHead
  have hrun : Action.runWith (filingMachine id branchHead) (branchTree.build "b").attempt
      (fun _ => none) = (.ok ⟨"./svc/b"⟩, _) := rfl
  obtain ⟨recipes, htold, -, hfile, -⟩ := marker_tells_commit hkeeps hrun
  have hnodes : recipes.map (·.project) = branchTree.dependenciesFirst :=
    (htold.complete _ rfl).1
  have hnames : recipes.map (·.project.name) = branchTree.dependenciesFirst.map (·.name) := by
    rw [← hnodes, List.map_map]
    rfl
  refine ⟨_, recipes, hkeeps, hrun, hnames, ?_, rfl⟩
  rcases hfile ⟨"./svc/b/commit"⟩ (spares_filingMachine id branchHead _)
    (htold.unrefused id _) with ⟨-, hnone⟩ | ⟨last, commit, hlast, hsays⟩
  · cases hnone
  · obtain rfl := Option.some.inj hsays
    exact ⟨last, hlast⟩

/-- The marker of the build `b` is a link to that of the build `a`. -/
def linkedPlace (path : Path) : Path :=
  if path = ⟨"./svc/b/commit"⟩ then ⟨"./svc/a/commit"⟩ else path

/-- Only the build `a` was made so far. -/
def filesOfA (file : Path) : Option String :=
  if file = ⟨"./svc/a/commit"⟩ then some "aaa" else none

/-- A build writes its own marker alone, and what changes is the marker of the other build. -/
theorem other_marker_changes_through_link :
    ∃ files,
      KeepsFiles (filingMachine linkedPlace branchHead) linkedPlace
        (fun files file => files file) ∧
      (∀ file, Spares (filingMachine linkedPlace branchHead) (fun files file => files file) file) ∧
      Action.runWith (filingMachine linkedPlace branchHead)
        ((branchProject "next" "dev" []).build "b").attempt filesOfA =
          (.ok ⟨"./svc/b"⟩, files) ∧
      writes (Action.traceWith (filingMachine linkedPlace branchHead)
        ((branchProject "next" "dev" []).build "b").attempt filesOfA) =
          [(⟨"./svc/b/commit"⟩, "bbb")] ∧
      filesOfA (linkedPlace ⟨"./svc/a/commit"⟩) = some "aaa" ∧
      files (linkedPlace ⟨"./svc/a/commit"⟩) = some "bbb" :=
  ⟨_, keepsFiles_filingMachine linkedPlace branchHead, spares_filingMachine linkedPlace branchHead,
    rfl, rfl, rfl, rfl⟩

end Project

end DaemonKeeper
