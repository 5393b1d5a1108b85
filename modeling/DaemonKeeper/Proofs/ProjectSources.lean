import DaemonKeeper.Project
import DaemonKeeper.Proofs.GitMachines
set_option autoImplicit false

/-!
# The repositories of a project tree

A tree is polled from its root down and updated from its leaves up.  On a machine that behaves like
git a poll answers whether some repository of the tree is behind, and an update that succeeds leaves
none of them behind.
-/

namespace DaemonKeeper.Project

open Git

/-! ## Where the repositories are -/

mutual
/-- Every branch that the tree tracks, once for each place in the tree. -/
def sites (p : Project) : List Site :=
  match p with
  | ⟨_, _, repository, dependencies, _, _⟩ => repository.site :: allSites dependencies

/-- Every branch that some trees track. -/
def allSites (ps : List Project) : List Site :=
  match ps with
  | [] => []
  | p :: rest => p.sites ++ allSites rest
end

variable {σ : Type} {machine : (q : Request) → σ → q.Reply × σ}
variable {H : History} {v : Repositories σ} {known : List Site}

/-! ## Polls -/

/-- One poll, then another unless the first has found something. -/
theorem exists_runWith_poll_orElse {x y : Task Bool} {first rest : List Site} {w : σ}
    (hx : ∃ outcome w', Action.runWith machine x.attempt w = (outcome, w') ∧ v.Same w w' ∧
      Polled H (v.heads w) first outcome)
    (hy : ∀ w, ∃ outcome w', Action.runWith machine y.attempt w = (outcome, w') ∧ v.Same w w' ∧
      Polled H (v.heads w) rest outcome) :
    ∃ outcome w', Action.runWith machine
        (Task.attempt (do if ← x then return true else y)) w = (outcome, w') ∧
      v.Same w w' ∧ Polled H (v.heads w) (first ++ rest) outcome := by
  obtain ⟨outcome, w₁, hrun, hsame, hpolled⟩ := hx
  rcases outcome with fault | changed
  · rw [Task.runWith_bind_of_error hrun]
    exact ⟨_, _, rfl, hsame, hpolled.append_of_ne rest nofun⟩
  rw [Task.runWith_bind_of_ok hrun]
  cases changed with
  | true => exact ⟨_, _, rfl, hsame, hpolled.append_of_ne rest nofun⟩
  | false =>
    obtain ⟨outcome, w', hrun', hsame', hpolled'⟩ := hy w₁
    rw [hsame.heads_eq] at hpolled'
    exact ⟨outcome, w', hrun', hsame.trans hsame', hpolled.append hpolled'⟩

mutual
/-- A poll of a tree moves nothing, and answers whether some checkout of it is behind. -/
theorem exists_runWith_hasUpstreamChange (hgit : LikeGit machine H v known) (p : Project)
    (hp : ∀ x ∈ p.sites, x ∈ known) (w : σ) :
    ∃ outcome w', Action.runWith machine p.hasUpstreamChange.attempt w = (outcome, w') ∧
      v.Same w w' ∧ Polled H (v.heads w) p.sites outcome :=
  match p with
  | ⟨_, _, repository, dependencies, _, _⟩ => by
    unfold sites at hp ⊢
    unfold hasUpstreamChange
    obtain ⟨hroot, hrest⟩ := List.forall_mem_cons.mp hp
    exact exists_runWith_poll_orElse (Git.exists_runWith_hasUpstreamChange hgit hroot w)
      (exists_runWith_anyUpstreamChange hgit dependencies hrest)

/-- The same for trees in order. -/
theorem exists_runWith_anyUpstreamChange (hgit : LikeGit machine H v known) (ps : List Project)
    (hps : ∀ x ∈ allSites ps, x ∈ known) (w : σ) :
    ∃ outcome w', Action.runWith machine (anyUpstreamChange ps).attempt w = (outcome, w') ∧
      v.Same w w' ∧ Polled H (v.heads w) (allSites ps) outcome :=
  match ps with
  | [] => by
    unfold anyUpstreamChange allSites
    exact ⟨.ok false, w, rfl, .refl v w, nofun⟩
  | p :: rest => by
    unfold allSites at hps ⊢
    unfold anyUpstreamChange
    obtain ⟨hp, hrest⟩ := List.forall_mem_append.mp hps
    exact exists_runWith_poll_orElse (exists_runWith_hasUpstreamChange hgit p hp w)
      (exists_runWith_anyUpstreamChange hgit rest hrest)
end

/-! ## Updates -/

mutual
/-- An update of a tree updates every repository of it. -/
theorem exists_runWith_cloneSources (hgit : LikeGit machine H v known) (p : Project)
    (hp : ∀ x ∈ p.sites, x ∈ known) (w : σ) :
    ∃ outcome w', Action.runWith machine p.cloneSources.attempt w = (outcome, w') ∧
      Updated H v p.sites w outcome w' :=
  match p with
  | ⟨_, _, repository, dependencies, _, _⟩ => by
    unfold sites at hp ⊢
    unfold cloneSources
    obtain ⟨hroot, hrest⟩ := List.forall_mem_cons.mp hp
    obtain ⟨outcome, w', hrun, hupdated⟩ := exists_runWith_update_andThen
      (exists_runWith_cloneAll hgit dependencies hrest w) (exists_runWith_update hgit hroot)
    refine ⟨outcome, w', hrun, hupdated.congr fun x => ?_⟩
    simp only [List.mem_append, List.mem_cons, List.not_mem_nil, or_false]
    exact Or.comm

/-- The same for trees in order. -/
theorem exists_runWith_cloneAll (hgit : LikeGit machine H v known) (ps : List Project)
    (hps : ∀ x ∈ allSites ps, x ∈ known) (w : σ) :
    ∃ outcome w', Action.runWith machine (cloneAll ps).attempt w = (outcome, w') ∧
      Updated H v (allSites ps) w outcome w' :=
  match ps with
  | [] => by
    unfold cloneAll allSites
    exact ⟨.ok (), w, rfl, .nil (.refl v w)⟩
  | p :: rest => by
    unfold allSites at hps ⊢
    unfold cloneAll
    obtain ⟨hp, hrest⟩ := List.forall_mem_append.mp hps
    exact exists_runWith_update_andThen (exists_runWith_cloneSources hgit p hp w)
      (exists_runWith_cloneAll hgit rest hrest)
end

end DaemonKeeper.Project
