import DaemonKeeper.Git.Repository
import DaemonKeeper.Proofs.History
import DaemonKeeper.Proofs.Trace
set_option autoImplicit false

/-!
# Machines that behave like git

The program sees a repository only through the replies of the `git` command.  `LikeGit` says what
those replies have to do with each other on a machine whose repositories have, for every tracked
branch, a head in the checkout and a head at the remote: queries tell the heads, a pull moves the
head of the checkout forward, and nothing else moves any head.  The remote heads stay where they
are.
-/

namespace DaemonKeeper.Git

/-- A branch that is tracked in a checkout. -/
structure Site where
  directory : Path
  branch : String
  deriving DecidableEq, Repr

/-- Where a repository is tracked. -/
def Repository.site (r : Repository) : Site := ⟨r.directory, r.branch⟩

namespace Site

/-- A git command in the checkout. -/
abbrev git (x : Site) (arguments : List String) : Request := .run x.directory ⟨"git", arguments⟩

/-- The remote counterpart of the branch. -/
def remoteBranch (x : Site) : String := "origin/" ++ x.branch

/-- The commands that are run for their effect, apart from pulls. -/
def errands (x : Site) : List (List String) :=
  [["remote", "update"], ["submodule", "init"], ["submodule", "update"], ["checkout", x.branch]]

/-- The requests that move no head: the errands and the queries. -/
def still (x : Site) : List Request :=
  x.errands.map x.git ++
    [.isDirectory x.directory, x.git ["branch"], x.git ["rev-parse", x.branch],
      x.git ["rev-parse", x.remoteBranch], x.git ["merge-base", x.branch, x.remoteBranch]]

end Site

/-- What the repositories of a machine are like in each of its states. -/
structure Repositories (σ : Type) where
  heads : σ → Site → Heads
  /-- The remote heads are known in the checkout. -/
  fetched : σ → Path → Prop

/-- No head has moved, and what was fetched is still known. -/
structure Repositories.Same {σ : Type} (v : Repositories σ) (w w' : σ) : Prop where
  heads_eq : v.heads w' = v.heads w
  fetched : ∀ directory, v.fetched w directory → v.fetched w' directory

/-- A pull of a branch, with its reply and the heads after it. -/
inductive Pulled (H : History) : Heads → Except Fault Output → Heads → Prop
  | forwarded {x : Heads} {output : Output} :
    x.Behind H → Pulled H x (.ok output) ⟨x.there, x.there⟩
  | nothingNew {x : Heads} {output : Output} : x.Covered H → Pulled H x (.ok output) x
  /-- Git was told to merge. -/
  | merged {x y : Heads} {output : Output} :
    x.Diverged H → y.there = x.there → y.Covered H → Pulled H x (.ok output) y
  | refused {x : Heads} {fault : Fault} : x.Diverged H → Pulled H x (.error fault) x

namespace Pulled

variable {H : History} {x y : Heads}

/-- A pull that succeeds leaves nothing at the remote that is not here. -/
theorem covered_of_ok {output : Output} (h : Pulled H x (.ok output) y) : y.Covered H := by
  cases h with
  | forwarded _ => exact .refl H x.there
  | nothingNew hcovered => exact hcovered
  | merged _ _ hcovered => exact hcovered

/-- A pull fails only on heads that have diverged. -/
theorem diverged_of_error {fault : Fault} (h : Pulled H x (.error fault) y) : x.Diverged H := by
  cases h with
  | refused hdiverged => exact hdiverged

/-- A pull leaves the heads as they are or leaves nothing at the remote that is not here. -/
theorem eq_or_covered {reply : Except Fault Output} (h : Pulled H x reply y) :
    y = x ∨ y.Covered H := by
  cases h with
  | forwarded _ => exact .inr (.refl H x.there)
  | nothingNew _ => exact .inl rfl
  | merged _ _ hcovered => exact .inr hcovered
  | refused _ => exact .inl rfl

end Pulled

section

variable {σ : Type} (machine : (q : Request) → σ → q.Reply × σ)

/-- The command writes a single line, which says `text`. -/
def Says (x : Site) (arguments : List String) (w : σ) (text : String) : Prop :=
  ∃ output line, (machine (x.git arguments) w).1 = .ok output ∧ output.stdout = [line] ∧
    Text.trim line = text

/-- A machine on which git works as usual in the checkouts that are listed. -/
structure LikeGit (H : History) (v : Repositories σ) (sites : List Site) : Prop where
  isDirectory : ∀ x ∈ sites, ∀ w, (machine (.isDirectory x.directory) w).1 = true
  branch : ∀ x ∈ sites, ∀ w, ∃ output name, (machine (x.git ["branch"]) w).1 = .ok output ∧
    output.stdout.findSome? starredName = some name
  errand : ∀ x ∈ sites, ∀ arguments ∈ x.errands, ∀ w,
    ∃ output, (machine (x.git arguments) w).1 = .ok output
  fetch : ∀ x ∈ sites, ∀ w, v.fetched (machine (x.git ["remote", "update"]) w).2 x.directory
  here : ∀ x ∈ sites, ∀ w, Says machine x ["rev-parse", x.branch] w (v.heads w x).here
  there : ∀ x ∈ sites, ∀ w, v.fetched w x.directory →
    Says machine x ["rev-parse", x.remoteBranch] w (v.heads w x).there
  /-- A merge base is told if there is one; heads that have nothing in common give a failure. -/
  mergeBase : ∀ x ∈ sites, ∀ w, v.fetched w x.directory →
    (∃ base, H.MergeBase (v.heads w x).here (v.heads w x).there base ∧
      Says machine x ["merge-base", x.branch, x.remoteBranch] w base) ∨
    ((¬ ∃ c, H.Ancestor c (v.heads w x).here ∧ H.Ancestor c (v.heads w x).there) ∧
      ∃ fault, (machine (x.git ["merge-base", x.branch, x.remoteBranch]) w).1 = .error fault)
  same : ∀ x ∈ sites, ∀ q ∈ x.still, ∀ w, v.Same w (machine q w).2
  pull : ∀ x ∈ sites, ∀ w, Pulled H (v.heads w x) (machine (x.git ["pull", "origin", x.branch]) w).1
    (v.heads (machine (x.git ["pull", "origin", x.branch]) w).2 x)
  pull_elsewhere : ∀ x ∈ sites, ∀ y, y ≠ x → ∀ w,
    v.heads (machine (x.git ["pull", "origin", x.branch]) w).2 y = v.heads w y

end

namespace Repositories.Same

variable {σ : Type} {v : Repositories σ} {w w₁ w' : σ}

theorem refl (v : Repositories σ) (w : σ) : v.Same w w := ⟨rfl, fun _ h => h⟩

theorem trans (h : v.Same w w₁) (h' : v.Same w₁ w') : v.Same w w' :=
  ⟨h'.heads_eq.trans h.heads_eq, fun directory hfetched =>
    h'.fetched directory (h.fetched directory hfetched)⟩

end Repositories.Same

/-! ## Single commands -/

section

variable {σ : Type} {machine : (q : Request) → σ → q.Reply × σ} {r : Repository} {w : σ}

/-- A command that is run for its effect answers whether it succeeded. -/
theorem runWith_gitEffect {arguments : List String} :
    Action.runWith machine (r.gitEffect arguments).attempt w =
      ((machine (r.site.git arguments) w).1.map fun _ => (),
        (machine (r.site.git arguments) w).2) := by
  unfold Repository.gitEffect
  cases hreply : (machine (r.site.git arguments) w).1 with
  | error fault =>
    have hgit : Action.runWith machine (r.git arguments).attempt w =
        (.error fault, (machine (r.site.git arguments) w).2) := Prod.ext hreply rfl
    rw [Task.runWith_bind_of_error hgit]
    rfl
  | ok output =>
    have hgit : Action.runWith machine (r.git arguments).attempt w =
        (.ok output, (machine (r.site.git arguments) w).2) := Prod.ext hreply rfl
    rw [Task.runWith_bind_of_ok hgit]
    rfl

/-- The only line of what a command writes is read without the white space around it. -/
theorem runWith_singleLine {arguments : List String} {reference text : String}
    (h : Says machine r.site arguments w text) :
    Action.runWith machine (Task.attempt (do
      let output ← r.git arguments
      ExceptT.mk (.done (singleLine reference output)))) w =
      (.ok text, (machine (r.site.git arguments) w).2) := by
  obtain ⟨output, line, hreply, hline, rfl⟩ := h
  have hgit : Action.runWith machine (r.git arguments).attempt w =
      (.ok output, (machine (r.site.git arguments) w).2) := Prod.ext hreply rfl
  rw [Task.runWith_bind_of_ok hgit]
  unfold singleLine
  rw [hline]
  rfl

end

/-! ## Polls -/

/-- What a poll of some branches may answer.  If it ends in a fault, it has met a branch whose heads
have diverged. -/
def Polled (H : History) (heads : Site → Heads) (sites : List Site) : Except Fault Bool → Prop
  | .ok true => ∃ x ∈ sites, (heads x).Behind H
  | .ok false => ∀ x ∈ sites, (heads x).Covered H
  | .error _ => ∃ x ∈ sites, (heads x).Diverged H

namespace Polled

variable {H : History} {heads : Site → Heads} {first rest : List Site}
variable {outcome : Except Fault Bool}

/-- A poll that goes on after a part that is covered. -/
theorem append (hfirst : Polled H heads first (.ok false)) (hrest : Polled H heads rest outcome) :
    Polled H heads (first ++ rest) outcome := by
  rcases outcome with fault | changed
  · obtain ⟨x, hx, hdiverged⟩ := hrest
    exact ⟨x, List.mem_append_right _ hx, hdiverged⟩
  cases changed with
  | false =>
    intro x hx
    rcases List.mem_append.mp hx with hx | hx
    · exact hfirst x hx
    · exact hrest x hx
  | true =>
    obtain ⟨x, hx, hbehind⟩ := hrest
    exact ⟨x, List.mem_append_right _ hx, hbehind⟩

/-- A poll that ends early answers for the whole. -/
theorem append_of_ne (hfirst : Polled H heads first outcome) (rest : List Site)
    (hchanged : outcome ≠ .ok false) : Polled H heads (first ++ rest) outcome := by
  rcases outcome with fault | changed
  · obtain ⟨x, hx, hdiverged⟩ := hfirst
    exact ⟨x, List.mem_append_left _ hx, hdiverged⟩
  cases changed with
  | false => exact absurd rfl hchanged
  | true =>
    obtain ⟨x, hx, hbehind⟩ := hfirst
    exact ⟨x, List.mem_append_left _ hx, hbehind⟩

end Polled

section

variable {σ : Type} {machine : (q : Request) → σ → q.Reply × σ}
variable {H : History} {v : Repositories σ} {sites : List Site} {r : Repository}

/-- An errand succeeds and moves nothing. -/
theorem runWith_errand (hgit : LikeGit machine H v sites) (hr : r.site ∈ sites)
    (arguments : List String) (harguments : arguments ∈ r.site.errands) (w : σ) :
    Action.runWith machine (r.gitEffect arguments).attempt w =
      (.ok (), (machine (r.site.git arguments) w).2) ∧
    v.Same w (machine (r.site.git arguments) w).2 := by
  obtain ⟨output, hreply⟩ := hgit.errand _ hr arguments harguments w
  refine ⟨?_, hgit.same _ hr (r.site.git arguments) ?_ w⟩
  · rw [runWith_gitEffect, hreply]
    rfl
  · exact List.mem_append_left _ (List.mem_map_of_mem harguments)

/-- Fetching makes the remote heads known. -/
theorem exists_runWith_updateRemote (hgit : LikeGit machine H v sites) (hr : r.site ∈ sites)
    (w : σ) :
    ∃ w', Action.runWith machine r.updateRemote.attempt w = (.ok (), w') ∧ v.Same w w' ∧
      v.fetched w' r.site.directory := by
  obtain ⟨hrun, hsame⟩ := runWith_errand hgit hr ["remote", "update"]
    (by simp [Site.errands]) w
  exact ⟨_, hrun, hsame, hgit.fetch _ hr w⟩

/-- The local head is told. -/
theorem exists_runWith_here (hgit : LikeGit machine H v sites) (hr : r.site ∈ sites) (w : σ) :
    ∃ w', Action.runWith machine (r.headCommit r.branch).attempt w =
      (.ok (v.heads w r.site).here, w') ∧ v.Same w w' :=
  ⟨_, runWith_singleLine (hgit.here _ hr w),
    hgit.same _ hr (r.site.git ["rev-parse", r.site.branch]) (by simp [Site.still]) w⟩

/-- So is the remote head, once it was fetched. -/
theorem exists_runWith_there (hgit : LikeGit machine H v sites) (hr : r.site ∈ sites) {w : σ}
    (hfetched : v.fetched w r.site.directory) :
    ∃ w', Action.runWith machine (r.headCommit r.remoteBranch).attempt w =
      (.ok (v.heads w r.site).there, w') ∧ v.Same w w' :=
  ⟨_, runWith_singleLine (hgit.there _ hr w hfetched),
    hgit.same _ hr (r.site.git ["rev-parse", r.site.remoteBranch]) (by simp [Site.still]) w⟩

/-- Their merge base is told if they have one. -/
theorem exists_runWith_mergeBase (hgit : LikeGit machine H v sites) (hr : r.site ∈ sites) {w : σ}
    (hfetched : v.fetched w r.site.directory) :
    ∃ w', v.Same w w' ∧
      ((∃ base, H.MergeBase (v.heads w r.site).here (v.heads w r.site).there base ∧
        Action.runWith machine (r.mergeBase r.branch r.remoteBranch).attempt w = (.ok base, w')) ∨
      ((v.heads w r.site).Diverged H ∧ ∃ fault,
        Action.runWith machine (r.mergeBase r.branch r.remoteBranch).attempt w =
          (.error fault, w'))) := by
  refine ⟨_, hgit.same _ hr (r.site.git ["merge-base", r.site.branch, r.site.remoteBranch])
    (by simp [Site.still]) w, ?_⟩
  rcases hgit.mergeBase _ hr w hfetched with ⟨base, hbase, hsays⟩ | ⟨hnone, fault, hfault⟩
  · exact .inl ⟨base, hbase, runWith_singleLine hsays⟩
  · exact .inr ⟨Heads.diverged_of_unrelated hnone, fault,
      Task.runWith_bind_of_error (Prod.ext hfault rfl)⟩

/-- Looking upstream tells how the heads stand to their merge base, unless they have none. -/
theorem exists_runWith_upstream (hgit : LikeGit machine H v sites) (hr : r.site ∈ sites) (w : σ) :
    ∃ w', v.Same w w' ∧
      ((∃ base, H.MergeBase (v.heads w r.site).here (v.heads w r.site).there base ∧
        Action.runWith machine r.upstream.attempt w = (.ok (.classify (v.heads w r.site).here
          (v.heads w r.site).there base), w')) ∨
      ((v.heads w r.site).Diverged H ∧
        ∃ fault, Action.runWith machine r.upstream.attempt w = (.error fault, w'))) := by
  obtain ⟨w₁, hupdate, hsame₁, hfetched₁⟩ := exists_runWith_updateRemote hgit hr w
  obtain ⟨w₂, hhere, hsame₂⟩ := exists_runWith_here hgit hr w₁
  have hfetched₂ := hsame₂.fetched _ hfetched₁
  obtain ⟨w₃, hthere, hsame₃⟩ := exists_runWith_there hgit hr hfetched₂
  have hfetched₃ := hsame₃.fetched _ hfetched₂
  obtain ⟨w₄, hsame₄, hbase⟩ := exists_runWith_mergeBase hgit hr hfetched₃
  have hsame := (hsame₁.trans hsame₂).trans hsame₃
  rw [hsame₁.heads_eq] at hhere
  rw [(hsame₁.trans hsame₂).heads_eq] at hthere
  rw [hsame.heads_eq] at hbase
  refine ⟨w₄, hsame.trans hsame₄, ?_⟩
  unfold Repository.upstream
  rw [Task.runWith_bind_of_ok hupdate, Task.runWith_bind_of_ok hhere,
    Task.runWith_bind_of_ok hthere]
  rcases hbase with ⟨base, hmergeBase, hrun⟩ | ⟨hdiverged, fault, hrun⟩
  · rw [Task.runWith_bind_of_ok hrun]
    exact .inl ⟨base, hmergeBase, rfl⟩
  · rw [Task.runWith_bind_of_error hrun]
    exact .inr ⟨hdiverged, fault, rfl⟩

/-- A poll of a repository moves nothing, and answers whether the checkout is behind. -/
theorem exists_runWith_hasUpstreamChange (hgit : LikeGit machine H v sites)
    (hr : r.site ∈ sites) (w : σ) :
    ∃ outcome w', Action.runWith machine r.hasUpstreamChange.attempt w = (outcome, w') ∧
      v.Same w w' ∧ Polled H (v.heads w) [r.site] outcome := by
  obtain ⟨w', hsame, ⟨base, hbase, hrun⟩ | ⟨hdiverged, fault, hrun⟩⟩ :=
    exists_runWith_upstream hgit hr w
  · unfold Repository.hasUpstreamChange
    rw [Task.runWith_bind_of_ok hrun]
    rcases Heads.classify_cases hbase with
      ⟨hclass, hbehind⟩ | ⟨hclass | hclass, hcovered⟩ | ⟨hclass, hdiverged⟩
    · rw [hclass]
      exact ⟨.ok true, w', rfl, hsame, r.site, List.mem_singleton.mpr rfl, hbehind⟩
    · rw [hclass]
      exact ⟨.ok false, w', rfl, hsame, by simpa [Polled] using hcovered⟩
    · rw [hclass]
      exact ⟨.ok false, w', rfl, hsame, by simpa [Polled] using hcovered⟩
    · rw [hclass]
      exact ⟨.error _, w', rfl, hsame, r.site, List.mem_singleton.mpr rfl, hdiverged⟩
  · unfold Repository.hasUpstreamChange
    rw [Task.runWith_bind_of_error hrun]
    exact ⟨.error fault, w', rfl, hsame, r.site, List.mem_singleton.mpr rfl, hdiverged⟩

end

/-! ## Updates -/

/-- What an update of some branches may come to.  Nothing else is moved; if it succeeds, the
branches have all that the remotes have, and if it ends in a fault, the heads of one of them had
diverged. -/
structure Updated {σ : Type} (H : History) (v : Repositories σ) (sites : List Site) (w : σ)
    (outcome : Except Fault Unit) (w' : σ) : Prop where
  moved : ∀ x, v.heads w' x = v.heads w x ∨ x ∈ sites ∧ (v.heads w' x).Covered H
  covered : outcome = .ok () → ∀ x ∈ sites, (v.heads w' x).Covered H
  diverged : ∀ fault, outcome = .error fault → ∃ x ∈ sites, (v.heads w x).Diverged H

namespace Updated

variable {σ : Type} {H : History} {v : Repositories σ} {sites sites' : List Site} {w w₁ w' : σ}
variable {outcome : Except Fault Unit}

theorem nil (hsame : v.Same w w') : Updated H v [] w (.ok ()) w' where
  moved x := .inl (congrFun hsame.heads_eq x)
  covered _ := nofun
  diverged _ h := by cases h

/-- What is done before and moves no head is part of the update. -/
theorem of_same (hsame : v.Same w w₁) (h : Updated H v sites w₁ outcome w') :
    Updated H v sites w outcome w' := by
  obtain ⟨hmoved, hcovered, hdiverged⟩ := h
  rw [hsame.heads_eq] at hmoved hdiverged
  exact ⟨hmoved, hcovered, hdiverged⟩

/-- So is what is done after it and moves no head. -/
theorem of_heads_eq (h : Updated H v sites w outcome w₁) (hheads : v.heads w' = v.heads w₁) :
    Updated H v sites w outcome w' := by
  obtain ⟨hmoved, hcovered, hdiverged⟩ := h
  rw [← hheads] at hmoved hcovered
  exact ⟨hmoved, hcovered, hdiverged⟩

/-- A pull is an update of one branch. -/
theorem of_pulled {x : Site} {reply : Except Fault Output}
    (h : Pulled H (v.heads w x) reply (v.heads w' x))
    (helsewhere : ∀ y, y ≠ x → v.heads w' y = v.heads w y) :
    Updated H v [x] w (reply.map fun _ => ()) w' where
  moved y := by
    by_cases hy : y = x
    · rw [hy]
      exact h.eq_or_covered.imp_right fun hcovered => ⟨List.mem_singleton.mpr rfl, hcovered⟩
    · exact .inl (helsewhere y hy)
  covered hok y hy := by
    rw [List.mem_singleton.mp hy]
    cases reply with
    | error fault => cases hok
    | ok output => exact h.covered_of_ok
  diverged fault hfault := by
    cases reply with
    | error fault => exact ⟨x, List.mem_singleton.mpr rfl, h.diverged_of_error⟩
    | ok output => cases hfault

/-- Heads that have diverged after an update had diverged before it. -/
theorem diverged_before (h : Updated H v sites w outcome w') {x : Site}
    (hx : (v.heads w' x).Diverged H) : (v.heads w x).Diverged H := by
  rcases h.moved x with hkept | ⟨-, hcovered⟩
  · rwa [hkept] at hx
  · exact absurd hcovered hx.not_covered

/-- What has been pulled stays covered, and what has diverged later had diverged before. -/
theorem append (h : Updated H v sites w (.ok ()) w₁) (h' : Updated H v sites' w₁ outcome w') :
    Updated H v (sites ++ sites') w outcome w' where
  moved x := by
    rcases h'.moved x with hkept | ⟨hmem, hcovered⟩
    · rw [hkept]
      rcases h.moved x with hkept' | ⟨hmem, hcovered⟩
      · exact .inl hkept'
      · exact .inr ⟨List.mem_append_left _ hmem, hcovered⟩
    · exact .inr ⟨List.mem_append_right _ hmem, hcovered⟩
  covered hok x hx := by
    rcases h'.moved x with hkept | ⟨-, hcovered⟩
    · rcases List.mem_append.mp hx with hmem | hmem
      · rw [hkept]
        exact h.covered rfl x hmem
      · exact h'.covered hok x hmem
    · exact hcovered
  diverged fault hfault := by
    obtain ⟨x, hmem, hdiverged⟩ := h'.diverged fault hfault
    exact ⟨x, List.mem_append_right _ hmem, h.diverged_before hdiverged⟩

/-- After a fault the branches that are left are not touched. -/
theorem append_of_error {fault : Fault} (h : Updated H v sites w (.error fault) w') :
    Updated H v (sites ++ sites') w (.error fault) w' where
  moved x := (h.moved x).imp_right fun hmoved => ⟨List.mem_append_left _ hmoved.1, hmoved.2⟩
  covered hok := by cases hok
  diverged fault' hfault := by
    obtain ⟨x, hmem, hdiverged⟩ := h.diverged fault' hfault
    exact ⟨x, List.mem_append_left _ hmem, hdiverged⟩

/-- The order of the branches does not matter. -/
theorem congr (h : Updated H v sites w outcome w') (hsites : ∀ x, x ∈ sites ↔ x ∈ sites') :
    Updated H v sites' w outcome w' where
  moved x := (h.moved x).imp_right fun hmoved => ⟨(hsites x).mp hmoved.1, hmoved.2⟩
  covered hok x hx := h.covered hok x ((hsites x).mpr hx)
  diverged fault hfault := by
    obtain ⟨x, hmem, hdiverged⟩ := h.diverged fault hfault
    exact ⟨x, (hsites x).mp hmem, hdiverged⟩

end Updated

section

variable {σ : Type} {machine : (q : Request) → σ → q.Reply × σ}
variable {H : History} {v : Repositories σ} {sites : List Site} {r : Repository}

/-- Some branch is checked out. -/
theorem exists_runWith_currentBranch (hgit : LikeGit machine H v sites) (hr : r.site ∈ sites)
    (w : σ) :
    ∃ name w', Action.runWith machine r.currentBranch.attempt w = (.ok name, w') ∧ v.Same w w' := by
  obtain ⟨output, name, hbranch, hname⟩ := hgit.branch _ hr w
  have hgitBranch : Action.runWith machine (r.git ["branch"]).attempt w =
      (.ok output, (machine (r.site.git ["branch"]) w).2) := Prod.ext hbranch rfl
  refine ⟨name, _, ?_, hgit.same _ hr (r.site.git ["branch"]) (by simp [Site.still]) w⟩
  unfold Repository.currentBranch
  rw [Task.runWith_bind_of_ok hgitBranch, hname]
  rfl

/-- A checkout that is there is found. -/
theorem exists_runWith_isCloned (hgit : LikeGit machine H v sites) (hr : r.site ∈ sites) (w : σ) :
    ∃ w', Action.runWith machine r.isCloned w = (true, w') ∧ v.Same w w' := by
  have hdirectory : Action.runWith machine (Action.request (.isDirectory r.directory)) w =
      (true, (machine (.isDirectory r.directory) w).2) :=
    Prod.ext (hgit.isDirectory _ hr w) rfl
  have hsame₁ := hgit.same _ hr (.isDirectory r.site.directory) (by simp [Site.still]) w
  obtain ⟨name, w', hbranch, hsame₂⟩ :=
    exists_runWith_currentBranch hgit hr (machine (.isDirectory r.directory) w).2
  refine ⟨w', ?_, hsame₁.trans hsame₂⟩
  have hprobe : Action.runWith machine r.probe w = (.ok name, w') := by
    unfold Repository.probe
    rw [Action.runWith_bind_of_eq hdirectory]
    simp only [Bool.not_true, Bool.false_eq_true, if_false]
    rw [Action.runWith_bind_of_eq hbranch]
    rfl
  unfold Repository.isCloned
  rw [Action.runWith_bind_of_eq hprobe]
  rfl

/-- So do the errands for the submodules. -/
theorem exists_runWith_updateSubmodules (hgit : LikeGit machine H v sites) (hr : r.site ∈ sites)
    (w : σ) :
    ∃ w', Action.runWith machine r.updateSubmodules.attempt w = (.ok (), w') ∧ v.Same w w' := by
  obtain ⟨hinit, hsame₁⟩ := runWith_errand hgit hr ["submodule", "init"]
    (by simp [Site.errands]) w
  obtain ⟨hupdate, hsame₂⟩ := runWith_errand hgit hr ["submodule", "update"]
    (by simp [Site.errands]) (machine (r.site.git ["submodule", "init"]) w).2
  refine ⟨_, ?_, hsame₁.trans hsame₂⟩
  unfold Repository.updateSubmodules
  rw [Task.runWith_bind_of_ok hinit, hupdate]

/-- The pull itself updates the one branch. -/
theorem exists_runWith_pullEffect (hgit : LikeGit machine H v sites) (hr : r.site ∈ sites)
    (w : σ) :
    ∃ outcome w', Action.runWith machine (r.gitEffect ["pull", "origin", r.branch]).attempt w =
      (outcome, w') ∧ Updated H v [r.site] w outcome w' :=
  ⟨_, _, runWith_gitEffect, .of_pulled (hgit.pull _ hr w)
    fun x hx => hgit.pull_elsewhere _ hr x hx w⟩

/-- One update, then another unless the first has failed. -/
theorem exists_runWith_update_andThen {x y : Task Unit} {first rest : List Site} {w : σ}
    (hx : ∃ outcome w', Action.runWith machine x.attempt w = (outcome, w') ∧
      Updated H v first w outcome w')
    (hy : ∀ w, ∃ outcome w', Action.runWith machine y.attempt w = (outcome, w') ∧
      Updated H v rest w outcome w') :
    ∃ outcome w', Action.runWith machine (Task.attempt (do x; y)) w = (outcome, w') ∧
      Updated H v (first ++ rest) w outcome w' := by
  obtain ⟨outcome, w₁, hrun, hupdated⟩ := hx
  cases outcome with
  | error fault =>
    exact ⟨_, _, Task.runWith_bind_of_error hrun, hupdated.append_of_error⟩
  | ok =>
    obtain ⟨outcome, w', hrun', hupdated'⟩ := hy w₁
    exact ⟨outcome, w', (Task.runWith_bind_of_ok hrun).trans hrun', hupdated.append hupdated'⟩

/-- What moves no head after an update is part of it. -/
theorem exists_runWith_update_andStill {x y : Task Unit} {w : σ} {branches : List Site}
    (hx : ∃ outcome w', Action.runWith machine x.attempt w = (outcome, w') ∧
      Updated H v branches w outcome w')
    (hy : ∀ w, ∃ w', Action.runWith machine y.attempt w = (.ok (), w') ∧ v.Same w w') :
    ∃ outcome w', Action.runWith machine (Task.attempt (do x; y)) w = (outcome, w') ∧
      Updated H v branches w outcome w' := by
  obtain ⟨outcome, w', hrun, hupdated⟩ := exists_runWith_update_andThen hx fun w => by
    obtain ⟨w', hrun, hsame⟩ := hy w
    exact ⟨.ok (), w', hrun, Updated.nil (H := H) hsame⟩
  rw [List.append_nil] at hupdated
  exact ⟨outcome, w', hrun, hupdated⟩

/-- A pull updates the branch, and then the submodules. -/
theorem exists_runWith_pull (hgit : LikeGit machine H v sites) (hr : r.site ∈ sites) (w : σ) :
    ∃ outcome w', Action.runWith machine r.pull.attempt w = (outcome, w') ∧
      Updated H v [r.site] w outcome w' :=
  exists_runWith_update_andStill (exists_runWith_pullEffect hgit hr w)
    (exists_runWith_updateSubmodules hgit hr)

/-- A repository that is there is not cloned but pulled. -/
theorem exists_runWith_clone (hgit : LikeGit machine H v sites) (hr : r.site ∈ sites) (w : σ) :
    ∃ outcome w', Action.runWith machine r.clone.attempt w = (outcome, w') ∧
      Updated H v [r.site] w outcome w' := by
  obtain ⟨w₁, hcloned, hsame⟩ := exists_runWith_isCloned hgit hr w
  obtain ⟨outcome, w', hpull, hupdated⟩ := exists_runWith_pull hgit hr w₁
  have hlift : Action.runWith machine (Task.attempt (ExceptT.lift r.isCloned)) w =
      (.ok true, w₁) := by
    unfold Task.attempt
    rw [ExceptT.run_lift, map_eq_pure_bind, Action.runWith_bind_of_eq hcloned]
    rfl
  refine ⟨outcome, w', ?_, hupdated.of_same hsame⟩
  unfold Repository.clone
  rw [Task.runWith_bind_of_ok hlift]
  exact hpull

/-- Its branch is checked out after that. -/
theorem exists_runWith_update (hgit : LikeGit machine H v sites) (hr : r.site ∈ sites) (w : σ) :
    ∃ outcome w', Action.runWith machine (Task.attempt (do
      r.clone
      r.checkout)) w = (outcome, w') ∧ Updated H v [r.site] w outcome w' := by
  refine exists_runWith_update_andStill (exists_runWith_clone hgit hr w) fun w => ?_
  obtain ⟨hcheckout, hsame⟩ := runWith_errand hgit hr ["checkout", r.branch]
    (by simp [Site.errands, Repository.site]) w
  exact ⟨_, hcheckout, hsame⟩

end

end DaemonKeeper.Git
