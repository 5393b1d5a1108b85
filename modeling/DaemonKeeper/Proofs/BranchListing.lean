import DaemonKeeper.Git.Repository
import DaemonKeeper.Proofs.Trace
import DaemonKeeper.Proofs.Trimming
set_option autoImplicit false

/-!
# The listing of branches (SPEC §3.2)

Git lists one branch on a line and puts a star before the one that is checked out.  If none is, the
star stands before a description in round brackets instead.  Whatever the star stands before, its
first word is taken for the current branch, so a description passes for a branch.
-/

namespace DaemonKeeper.Git

/-! ## Listings -/

/-- The name of a branch: some characters, and no white space among them. -/
structure BranchName where
  text : String
  nonempty : text.toList ≠ []
  free : ∀ c ∈ text.toList, Text.isBlank c = false

/-- Where the checkout stands: on a branch, or on a commit that git describes in brackets. -/
inductive Head where
  | branch (name : BranchName)
  | detached (description : String)

namespace Head

/-- The starred line. -/
def line : Head → String
  | branch name => "* " ++ name.text
  | detached description => "* (" ++ description ++ ")"

/-- The first word behind the star: the name of the branch, or what the description begins with. -/
def word : Head → String
  | branch name => name.text
  | detached description =>
    String.ofList (("(" ++ description ++ ")").toList.takeWhile (!Text.isBlank ·))

/-- What there is to say about the current branch. -/
def told (r : Repository) : Head → Except Fault String
  | branch name => .ok name.text
  | detached _ => .error (.noCurrentBranch r.directory)

end Head

/-- A branch that is not checked out here, though perhaps in another worktree. -/
structure OtherBranch where
  name : BranchName
  elsewhere : Bool

/-- The line of the branch. -/
def OtherBranch.line (b : OtherBranch) : String :=
  (if b.elsewhere then "+ " else "  ") ++ b.name.text

/-- What git lists: the starred line somewhere among the others. -/
structure Listing where
  before : List OtherBranch
  head : Head
  after : List OtherBranch

/-- The lines of the listing. -/
def Listing.lines (l : Listing) : List String :=
  l.before.map OtherBranch.line ++ l.head.line :: l.after.map OtherBranch.line

/-! ## What is read off a line -/

/-- A line without a star at its front names no current branch. -/
theorem starredName_eq_none {line : String} (h : line.toList.head? ≠ some '*') :
    starredName line = none := by
  unfold starredName
  split
  · rename_i rest heq
    exact absurd (congrArg List.head? heq) h
  · rfl

/-- Behind a star and a blank the first word is taken for the name. -/
theorem starredName_eq_some {line : String} {c : Char} {rest : List Char}
    (hline : line.toList = '*' :: ' ' :: c :: rest) (hc : Text.isBlank c = false) :
    starredName line = some (String.ofList ((c :: rest).takeWhile (!Text.isBlank ·))) := by
  unfold starredName
  rw [hline]
  have hblank : Text.isBlank ' ' = true := by decide
  simp [hblank, hc]

theorem starredName_other (b : OtherBranch) : starredName b.line = none := by
  refine starredName_eq_none ?_
  unfold OtherBranch.line
  cases b.elsewhere <;> simp

theorem starredName_head (h : Head) : starredName h.line = some h.word := by
  cases h with
  | branch name =>
    obtain ⟨c, rest, htext⟩ := List.exists_cons_of_ne_nil name.nonempty
    have hline : (Head.branch name).line.toList = '*' :: ' ' :: c :: rest := by
      simp [Head.line, htext]
    have hfree := name.free
    rw [htext] at hfree
    have hall : (c :: rest).takeWhile (!Text.isBlank ·) = c :: rest :=
      List.takeWhile_eq_self_iff.mpr fun x hx => by rw [hfree x hx]; rfl
    rw [starredName_eq_some hline (hfree c List.mem_cons_self), hall, ← htext, String.ofList_toList]
    rfl
  | detached description =>
    have hline : (Head.detached description).line.toList =
        '*' :: ' ' :: '(' :: (description ++ ")").toList := by
      simp [Head.line]
    rw [starredName_eq_some hline (by decide)]
    simp [Head.word]

/-- Wherever the starred line stands, it is the one that is found. -/
theorem findSome?_lines (l : Listing) : l.lines.findSome? starredName = some l.head.word := by
  have hbefore : (l.before.map OtherBranch.line).findSome? starredName = none :=
    List.findSome?_eq_none_iff.mpr fun line hline => by
      obtain ⟨b, -, rfl⟩ := List.mem_map.mp hline
      exact starredName_other b
  rw [Listing.lines, List.findSome?_append, hbefore, Option.none_or, List.findSome?_cons,
    starredName_head]

/-! ## What the repository makes of it -/

section

variable {σ : Type} (machine : (q : Request) → σ → q.Reply × σ)

/-- Git prints the listing in the checkout. -/
def PrintsListing (r : Repository) (l : Listing) (w : σ) : Prop :=
  ∃ output, (machine (.run r.directory ⟨"git", ["branch"]⟩) w).1 = .ok output ∧
    output.stdout = l.lines

end

section

variable {σ : Type} {machine : (q : Request) → σ → q.Reply × σ}
variable {r : Repository} {l : Listing} {w : σ}

theorem runWith_currentBranch (h : PrintsListing machine r l w) :
    Action.runWith machine r.currentBranch.attempt w =
      (.ok l.head.word, (machine (.run r.directory ⟨"git", ["branch"]⟩) w).2) := by
  obtain ⟨output, hreply, hlines⟩ := h
  have hbranch : Action.runWith machine (r.git ["branch"]).attempt w =
      (.ok output, (machine (.run r.directory ⟨"git", ["branch"]⟩) w).2) := Prod.ext hreply rfl
  unfold Repository.currentBranch
  rw [Task.runWith_bind_of_ok hbranch, hlines, findSome?_lines]
  rfl

theorem runWith_probe (hdirectory : (machine (.isDirectory r.directory) w).1 = true)
    (h : PrintsListing machine r l (machine (.isDirectory r.directory) w).2) :
    (Action.runWith machine r.probe w).1 = .ok l.head.word := by
  have hfound : Action.runWith machine (Action.request (.isDirectory r.directory)) w =
      (true, (machine (.isDirectory r.directory) w).2) := Prod.ext hdirectory rfl
  unfold Repository.probe
  rw [Action.runWith_bind_of_eq hfound]
  simp only [Bool.not_true, Bool.false_eq_true, if_false]
  rw [Action.runWith_bind_of_eq (runWith_currentBranch h)]
  rfl

theorem runWith_isCloned (hdirectory : (machine (.isDirectory r.directory) w).1 = true)
    (h : PrintsListing machine r l (machine (.isDirectory r.directory) w).2) :
    (Action.runWith machine r.isCloned w).1 = true := by
  unfold Repository.isCloned
  rw [Action.runWith_bind, runWith_probe hdirectory h]
  rfl

/-- The word that is taken from a listing tells where the checkout stands if and only if it stands
on a branch. -/
theorem Head.word_eq_told_iff (h : Head) :
    (.ok h.word : Except Fault String) = h.told r ↔ ∃ name, h = .branch name := by
  cases h with
  | branch name => exact ⟨fun _ => ⟨name, rfl⟩, fun _ => rfl⟩
  | detached description => exact ⟨nofun, nofun⟩

/-- The repository takes the first word behind the star for the current branch, wherever the star
stands.  That tells where the checkout stands if and only if it stands on a branch: a description is
taken for a branch too.  If the directory is there, the probe says the same, and the clone is
usable. -/
theorem currentBranch_told_iff_branch (r : Repository) (l : Listing) (w : σ) :
    (PrintsListing machine r l w →
      (Action.runWith machine r.currentBranch.attempt w).1 = .ok l.head.word ∧
      ((Action.runWith machine r.currentBranch.attempt w).1 = l.head.told r ↔
        ∃ name, l.head = .branch name)) ∧
    ((machine (.isDirectory r.directory) w).1 = true →
      PrintsListing machine r l (machine (.isDirectory r.directory) w).2 →
      (Action.runWith machine r.probe w).1 = .ok l.head.word ∧
      (Action.runWith machine r.isCloned w).1 = true) := by
  refine ⟨fun h => ?_, fun hdirectory h => ⟨runWith_probe hdirectory h, runWith_isCloned hdirectory h⟩⟩
  rw [runWith_currentBranch h]
  exact ⟨rfl, l.head.word_eq_told_iff⟩

end

/-- A machine on which git prints a listing. -/
def listingMachine (l : Listing) (q : Request) (_ : Unit) : q.Reply × Unit :=
  match q with
  | .run _ _ => (.ok (.ofLines l.lines), ())
  | .readFile _ => (.error .notFound, ())
  | .isDirectory _ => (true, ())
  | .isExecutable _ => (true, ())
  | .createDirectory _ => (.ok (), ())
  | .writeFile _ _ => (.ok (), ())
  | .spawn _ _ => (.ok 1, ())
  | .status _ => (.alive, ())
  | .signal _ _ => (.ok (), ())
  | .kill _ => (.ok (), ())
  | .sleep _ => ((), ())
  | .pause _ => (.elapsed, ())
  | .clock => (.ofSeconds 0, ())

theorem printsListing_listingMachine (r : Repository) (l : Listing) (w : Unit) :
    PrintsListing (listingMachine l) r l w := ⟨_, rfl, rfl⟩

/-- A repository whose branches are listed. -/
def listed : Repository :=
  { parent := ⟨"."⟩, name := "svc", branch := "master", host := "github.com",
    organization := "acme" }

/-- The tracked branch. -/
def masterName : BranchName := ⟨"master", by decide, List.forall_iff_forall_mem.mp (by decide)⟩

/-- A branch for a release. -/
def releaseName : BranchName := ⟨"release/2.1", by decide, List.forall_iff_forall_mem.mp (by decide)⟩

/-- The release is checked out, and the tracked branch in another worktree. -/
def onRelease : Listing := ⟨[⟨masterName, true⟩], .branch releaseName, []⟩

/-- The star stands before the release in the second line. -/
theorem currentBranch_told_iff_branch_release :
    PrintsListing (listingMachine onRelease) listed onRelease () ∧
    (Action.runWith (listingMachine onRelease) listed.currentBranch.attempt ()).1 =
      .ok "release/2.1" ∧
    (listingMachine onRelease (.isDirectory listed.directory) ()).1 = true ∧
    (Action.runWith (listingMachine onRelease) listed.probe ()).1 = .ok "release/2.1" ∧
    (Action.runWith (listingMachine onRelease) listed.isCloned ()).1 = true := by
  have hprints := printsListing_listingMachine listed onRelease ()
  obtain ⟨hcurrent, hprobe⟩ :=
    @currentBranch_told_iff_branch _ (listingMachine onRelease) listed onRelease ()
  exact ⟨hprints, (hcurrent hprints).1, rfl, hprobe rfl hprints⟩

/-- A commit is checked out, and no branch. -/
def onCommit : Listing := ⟨[], .detached "HEAD detached at 1a2b3c4", [⟨masterName, false⟩]⟩

/-- The description of the commit is taken for a branch, and the clone for a usable one. -/
theorem currentBranch_of_description :
    onCommit.lines = ["* (HEAD detached at 1a2b3c4)", "  master"] ∧
    onCommit.head.told listed = .error (.noCurrentBranch ⟨"./svc"⟩) ∧
    (Action.runWith (listingMachine onCommit) listed.currentBranch.attempt ()).1 = .ok "(HEAD" ∧
    (Action.runWith (listingMachine onCommit) listed.probe ()).1 = .ok "(HEAD" ∧
    (Action.runWith (listingMachine onCommit) listed.isCloned ()).1 = true := by
  exact ⟨by decide, rfl, rfl, rfl, rfl⟩

end DaemonKeeper.Git
