import DaemonKeeper.Proofs.GitMachines
import DaemonKeeper.Proofs.Trimming
set_option autoImplicit false

/-!
# The verdict on a branch (SPEC §3.2)

A poll of a repository reads three commits, each from a line that may have white space around it,
and compares them.  Over every history the comparison tells how the heads stand to each other,
whichever of their merge bases git prints: there may be several, and it may print another one each
time.
-/

namespace DaemonKeeper.Git

section

variable {σ : Type} (machine : (q : Request) → σ → q.Reply × σ)

/-- The command prints one line, which says the text with white space around it. -/
def Prints (r : Repository) (arguments : List String) (w : σ) (text : String) : Prop :=
  ∃ output line, (machine (.run r.directory ⟨"git", arguments⟩) w).1 = .ok output ∧
    output.stdout = [line] ∧ Text.Padded line text

/-- The machine fetches for the repository, and prints the two heads of its branch and some merge
base of theirs.  Which one it prints may depend on the state in which it is asked. -/
structure TellsHeads (H : History) (r : Repository) (x : Heads) : Prop where
  fetch : ∀ w, ∃ output,
    (machine (.run r.directory ⟨"git", ["remote", "update"]⟩) w).1 = .ok output
  here : ∀ w, Prints machine r ["rev-parse", r.branch] w x.here
  there : ∀ w, Prints machine r ["rev-parse", r.remoteBranch] w x.there
  mergeBase : ∀ w, ∃ base, H.MergeBase x.here x.there base ∧
    Prints machine r ["merge-base", r.branch, r.remoteBranch] w base

end

section

variable {σ : Type} {machine : (q : Request) → σ → q.Reply × σ}
variable {H : History} {r : Repository} {x : Heads}

theorem Prints.saysText {arguments : List String} {w : σ} {text : String}
    (h : Prints machine r arguments w text) : Says machine r.site arguments w text := by
  obtain ⟨output, line, hreply, hline, hpadded⟩ := h
  exact ⟨output, line, hreply, hline, hpadded.trim_eq⟩

namespace TellsHeads

/-- Looking upstream compares the two heads with one of their merge bases. -/
theorem exists_runWith_upstream (h : TellsHeads machine H r x) (w : σ) :
    ∃ base w', H.MergeBase x.here x.there base ∧
      Action.runWith machine r.upstream.attempt w =
        (.ok (.classify x.here x.there base), w') := by
  obtain ⟨output, hfetch⟩ := h.fetch w
  let w₁ := (machine (r.site.git ["remote", "update"]) w).2
  let w₂ := (machine (r.site.git ["rev-parse", r.branch]) w₁).2
  let w₃ := (machine (r.site.git ["rev-parse", r.remoteBranch]) w₂).2
  have hupdate : Action.runWith machine r.updateRemote.attempt w = (.ok (), w₁) := by
    unfold Repository.updateRemote
    rw [runWith_gitEffect]
    exact Prod.ext (congrArg (Except.map fun _ => ()) hfetch) rfl
  have hhere : Action.runWith machine (r.headCommit r.branch).attempt w₁ = (.ok x.here, w₂) :=
    runWith_singleLine (h.here w₁).saysText
  have hthere : Action.runWith machine (r.headCommit r.remoteBranch).attempt w₂ =
      (.ok x.there, w₃) := runWith_singleLine (h.there w₂).saysText
  obtain ⟨base, hbase, hprints⟩ := h.mergeBase w₃
  let w₄ := (machine (r.site.git ["merge-base", r.branch, r.remoteBranch]) w₃).2
  have hmergeBase : Action.runWith machine (r.mergeBase r.branch r.remoteBranch).attempt w₃ =
      (.ok base, w₄) := runWith_singleLine hprints.saysText
  refine ⟨base, w₄, hbase, ?_⟩
  unfold Repository.upstream
  rw [Task.runWith_bind_of_ok hupdate, Task.runWith_bind_of_ok hhere,
    Task.runWith_bind_of_ok hthere, Task.runWith_bind_of_ok hmergeBase]
  rfl

/-- The answer of the poll goes with how the heads stand to each other. -/
theorem poll_cases (h : TellsHeads machine H r x) (w : σ) :
    ((Action.runWith machine r.hasUpstreamChange.attempt w).1 = .ok true ∧ x.Behind H) ∨
    ((Action.runWith machine r.hasUpstreamChange.attempt w).1 = .ok false ∧ x.Covered H) ∨
    ((Action.runWith machine r.hasUpstreamChange.attempt w).1 =
      .error (.divergedHistory r.directory r.branch) ∧ x.Diverged H) := by
  obtain ⟨base, w', hbase, hrun⟩ := h.exists_runWith_upstream w
  unfold Repository.hasUpstreamChange
  rw [Task.runWith_bind_of_ok hrun]
  rcases Heads.classify_cases hbase with
    ⟨hclass, hbehind⟩ | ⟨hclass | hclass, hcovered⟩ | ⟨hclass, hdiverged⟩
  · rw [hclass]
    exact .inl ⟨rfl, hbehind⟩
  · rw [hclass]
    exact .inr (.inl ⟨rfl, hcovered⟩)
  · rw [hclass]
    exact .inr (.inl ⟨rfl, hcovered⟩)
  · rw [hclass]
    exact .inr (.inr ⟨rfl, hdiverged⟩)

end TellsHeads

/-- The poll answers that there is a change if and only if the checkout is properly behind the
remote, that there is none if and only if it has all that the remote has, and that the branch has
diverged if and only if neither head is an ancestor of the other. -/
theorem hasUpstreamChange_iff (h : TellsHeads machine H r x) (w : σ) :
    ((Action.runWith machine r.hasUpstreamChange.attempt w).1 = .ok true ↔
      x.here ≠ x.there ∧ H.Ancestor x.here x.there) ∧
    ((Action.runWith machine r.hasUpstreamChange.attempt w).1 = .ok false ↔
      H.Ancestor x.there x.here) ∧
    ((Action.runWith machine r.hasUpstreamChange.attempt w).1 =
      .error (.divergedHistory r.directory r.branch) ↔
      ¬ H.Ancestor x.here x.there ∧ ¬ H.Ancestor x.there x.here) := by
  -- The three standings exclude each other, and so do the three answers.
  have hcases := h.poll_cases w
  have hbehind : x.Behind H → ¬ x.Covered H := Heads.Behind.not_covered
  unfold Heads.Behind Heads.Covered Heads.Diverged at *
  rcases hcases with ⟨hrun, hx⟩ | ⟨hrun, hx⟩ | ⟨hrun, hx⟩
  · have hcovered := hbehind hx
    simp [hrun, hx, hcovered]
  · have hstrict : ¬ (x.here ≠ x.there ∧ H.Ancestor x.here x.there) := fun hx' => hbehind hx' hx
    simp only [hrun, hstrict, hx]
    simp
  · simp [hrun, hx]

end

/-! ## A history with two merge bases -/

/-- The size of a commit in the history below. -/
def crissCrossSize (commit : String) : Nat :=
  if commit = "x" ∨ commit = "y" then 2 else if commit = "a" ∨ commit = "b" then 1 else 0

/-- The parents in the history below. -/
def crissCrossParents (commit : String) : List String :=
  if commit = "x" then ["a", "b"]
  else if commit = "y" then ["b", "a"]
  else if commit = "a" ∨ commit = "b" then ["r"]
  else []

theorem crissCrossSize_lt {c d : String} (h : c ∈ crissCrossParents d) :
    crissCrossSize c < crissCrossSize d := by
  unfold crissCrossParents at h
  split at h
  · next hd =>
    rcases (by simpa using h) with rfl | rfl <;> rw [hd] <;> decide
  split at h
  · next hd =>
    rcases (by simpa using h) with rfl | rfl <;> rw [hd] <;> decide
  split at h
  · next hd =>
    obtain rfl : c = "r" := List.mem_singleton.mp h
    rcases hd with rfl | rfl <;> decide
  · cases h

/-- Two commits come after a first one and have been merged twice, in either order. -/
def crissCross : History where
  parents := crissCrossParents
  acyclic := History.acyclic_of_measure crissCrossSize fun _ _ => crissCrossSize_lt

/-- The two merges. -/
def merges : Heads := ⟨"x", "y"⟩

theorem eq_or_size_lt_crissCross {c d : String} (h : crissCross.Ancestor c d) :
    c = d ∨ crissCrossSize c < crissCrossSize d :=
  h.eq_or_size_lt crissCrossSize fun _ _ => crissCrossSize_lt

/-- No commit comes before another one of its size. -/
theorem not_ancestor_crissCross {c d : String} (hne : c ≠ d)
    (hsize : crissCrossSize d ≤ crissCrossSize c) : ¬ crissCross.Ancestor c d := by
  intro h
  rcases eq_or_size_lt_crissCross h with heq | hlt
  · exact hne heq
  · omega

/-- Both of the commits that were merged are merge bases. -/
theorem mergeBase_crissCross {m : String} (hx : m ∈ crissCrossParents "x")
    (hy : m ∈ crissCrossParents "y") : crissCross.MergeBase "x" "y" m where
  left := Relation.ReflTransGen.single hx
  right := Relation.ReflTransGen.single hy
  best c hcx hcy hmc := by
    have hm : crissCrossSize m = 1 := by
      rcases (by simpa [crissCrossParents] using hx) with rfl | rfl <;> decide
    rcases eq_or_size_lt_crissCross hmc with heq | hlt
    · exact heq.symm
    rcases eq_or_size_lt_crissCross hcx with rfl | hlt'
    · exact absurd hcy (not_ancestor_crissCross (by decide) (by decide))
    · have hx2 : crissCrossSize "x" = 2 := by decide
      omega

/-- A repository whose branch has been merged on both sides. -/
def merged : Repository :=
  { parent := ⟨"."⟩, name := "svc", branch := "master", host := "github.com",
    organization := "acme" }

/-- The machine on which it is polled.  It prints the two merge bases in turn. -/
def mergedMachine (q : Request) (turn : Bool) : q.Reply × Bool :=
  match q with
  | .run _ command =>
    if command.arguments = ["rev-parse", "master"] then (.ok ⟨0, ["x "], []⟩, turn)
    else if command.arguments = ["rev-parse", "origin/master"] then (.ok ⟨0, [" y"], []⟩, turn)
    else if command.arguments = ["merge-base", "master", "origin/master"] then
      (.ok ⟨0, [if turn then "\ta " else " b"], []⟩, !turn)
    else (.ok ⟨0, [], []⟩, turn)
  | .readFile _ => (.error .notFound, turn)
  | .isDirectory _ => (true, turn)
  | .isExecutable _ => (true, turn)
  | .createDirectory _ => (.ok (), turn)
  | .writeFile _ _ => (.ok (), turn)
  | .spawn _ _ => (.ok 1, turn)
  | .status _ => (.alive, turn)
  | .signal _ _ => (.ok (), turn)
  | .kill _ => (.ok (), turn)
  | .sleep _ => ((), turn)
  | .pause _ => (.elapsed, turn)
  | .clock => (.ofSeconds 0, turn)

theorem tellsHeads_merged : TellsHeads mergedMachine crissCross merged merges where
  fetch _ := ⟨_, rfl⟩
  here _ :=
    ⟨_, "x ", rfl, rfl, .of_all [] [' '] rfl rfl rfl rfl rfl⟩
  there _ :=
    ⟨_, " y", rfl, rfl, .of_all [' '] [] rfl rfl rfl rfl rfl⟩
  mergeBase turn := by
    cases turn with
    | true =>
      exact ⟨"a", mergeBase_crissCross (by decide) (by decide), _, "\ta ", rfl, rfl,
        .of_all ['\t'] [' '] rfl rfl rfl rfl rfl⟩
    | false =>
      exact ⟨"b", mergeBase_crissCross (by decide) (by decide), _, " b", rfl, rfl,
        .of_all [' '] [] rfl rfl rfl rfl rfl⟩

/-- The two merges have diverged, whichever merge base is printed. -/
theorem hasUpstreamChange_merged :
    TellsHeads mergedMachine crissCross merged merges ∧
    (Action.runWith mergedMachine merged.hasUpstreamChange.attempt true).1 =
      .error (.divergedHistory merged.directory "master") ∧
    (Action.runWith mergedMachine merged.hasUpstreamChange.attempt false).1 =
      .error (.divergedHistory merged.directory "master") := by
  have hdiverged : ¬ crissCross.Ancestor "x" "y" ∧ ¬ crissCross.Ancestor "y" "x" :=
    ⟨not_ancestor_crissCross (by decide) (by decide),
      not_ancestor_crissCross (by decide) (by decide)⟩
  exact ⟨tellsHeads_merged, (hasUpstreamChange_iff tellsHeads_merged true).2.2.mpr hdiverged,
    (hasUpstreamChange_iff tellsHeads_merged false).2.2.mpr hdiverged⟩

end DaemonKeeper.Git
