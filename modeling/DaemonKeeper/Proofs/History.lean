import DaemonKeeper.Git.Upstream
import Mathlib.Logic.Relation
set_option autoImplicit false

/-!
# Histories: what the four states of a branch mean

Commits name their parents, and no commit comes after itself.  Over such a history the comparison of
two heads with their merge base says exactly how the heads stand to each other: one is an ancestor
of the other, or they are equal, or neither can be reached from the other.
-/

namespace DaemonKeeper.Git

/-- The commits of a repository with their parents. -/
structure History where
  parents : String → List String
  acyclic : ∀ commit, ¬ Relation.TransGen (fun a b => a ∈ parents b) commit commit

namespace History

variable {H : History} {a b m : String}

/-- One commit can be reached from another by going to parents, in no step or more. -/
def Ancestor (H : History) (a b : String) : Prop :=
  Relation.ReflTransGen (fun a b => a ∈ H.parents b) a b

theorem Ancestor.refl (H : History) (a : String) : H.Ancestor a a := Relation.ReflTransGen.refl

/-- Two commits that are ancestors of each other are one. -/
theorem Ancestor.antisymm (hab : H.Ancestor a b) (hba : H.Ancestor b a) : a = b := by
  rcases Relation.reflTransGen_iff_eq_or_transGen.mp hab with heq | hstrict
  · exact heq.symm
  · exact absurd (hstrict.trans_left hba) (H.acyclic a)

/-- Where every parent is smaller by some measure, so is whatever comes before. -/
theorem size_lt_of_transGen {parents : String → List String} (size : String → Nat)
    (h : ∀ a b, a ∈ parents b → size a < size b)
    (hab : Relation.TransGen (fun a b => a ∈ parents b) a b) : size a < size b := by
  induction hab with
  | single hparent => exact h _ _ hparent
  | tail _ hparent ih => exact Nat.lt_trans ih (h _ _ hparent)

/-- Then no commit comes after itself. -/
theorem acyclic_of_measure {parents : String → List String} (size : String → Nat)
    (h : ∀ a b, a ∈ parents b → size a < size b) (commit : String) :
    ¬ Relation.TransGen (fun a b => a ∈ parents b) commit commit :=
  fun hself => Nat.lt_irrefl _ (size_lt_of_transGen size h hself)

/-- Then ancestors are the commit itself or smaller. -/
theorem Ancestor.eq_or_size_lt (size : String → Nat)
    (h : ∀ a b, a ∈ H.parents b → size a < size b) (hab : H.Ancestor a b) :
    a = b ∨ size a < size b := by
  rcases Relation.reflTransGen_iff_eq_or_transGen.mp hab with heq | hstrict
  · exact .inl heq.symm
  · exact .inr (size_lt_of_transGen size h hstrict)

/-- A common ancestor that is below no other one. -/
structure MergeBase (H : History) (a b m : String) : Prop where
  left : H.Ancestor m a
  right : H.Ancestor m b
  best : ∀ c, H.Ancestor c a → H.Ancestor c b → H.Ancestor m c → c = m

/-- The order of the two commits does not matter. -/
theorem MergeBase.symm (h : H.MergeBase a b m) : H.MergeBase b a m :=
  ⟨h.right, h.left, fun c hcb hca hmc => h.best c hca hcb hmc⟩

/-- An ancestor is its own merge base with what comes after it. -/
theorem MergeBase.of_ancestor (h : H.Ancestor a b) : H.MergeBase a b a :=
  ⟨.refl H a, h, fun _ hca _ hac => hca.antisymm hac⟩

/-- The merge base is one of the commits if and only if that one is an ancestor of the other. -/
theorem MergeBase.eq_left_iff (h : H.MergeBase a b m) : a = m ↔ H.Ancestor a b := by
  constructor
  · rintro rfl
    exact h.right
  · exact fun hab => h.best a (.refl H a) hab h.left

end History

/-! ## A branch with its remote counterpart -/

/-- The heads of a branch, in the checkout and at the remote. -/
structure Heads where
  here : String
  there : String
  deriving DecidableEq, Repr

namespace Heads

variable {H : History} {x : Heads} {m : String}

/-- The remote has commits that a fast-forward would bring. -/
def Behind (H : History) (x : Heads) : Prop := x.here ≠ x.there ∧ H.Ancestor x.here x.there

/-- The remote has nothing that is not here. -/
def Covered (H : History) (x : Heads) : Prop := H.Ancestor x.there x.here

/-- Both have commits that the other lacks. -/
def Diverged (H : History) (x : Heads) : Prop :=
  ¬ H.Ancestor x.here x.there ∧ ¬ H.Ancestor x.there x.here

/-- A branch that is behind lacks something. -/
theorem Behind.not_covered (h : Behind H x) : ¬ Covered H x :=
  fun hcovered => h.1 (h.2.antisymm hcovered)

theorem Diverged.not_covered (h : Diverged H x) : ¬ Covered H x := h.2

/-- Heads without a common ancestor have diverged. -/
theorem diverged_of_unrelated (h : ¬ ∃ c, H.Ancestor c x.here ∧ H.Ancestor c x.there) :
    Diverged H x :=
  ⟨fun hahead => h ⟨x.here, .refl H _, hahead⟩, fun hbehind => h ⟨x.there, hbehind, .refl H _⟩⟩

/-- The comparison with the merge base, read as a statement about the history. -/
theorem classify_cases (hbase : H.MergeBase x.here x.there m) :
    (Upstream.classify x.here x.there m = .pullNeeded ∧ Behind H x) ∨
    ((Upstream.classify x.here x.there m = .upToDate ∨
      Upstream.classify x.here x.there m = .pushNeeded) ∧ Covered H x) ∨
    (Upstream.classify x.here x.there m = .diverged ∧ Diverged H x) := by
  unfold Upstream.classify
  by_cases heq : x.here = x.there
  · refine .inr (.inl ⟨.inl (if_pos heq), ?_⟩)
    unfold Covered
    rw [heq]
    exact .refl H _
  rw [if_neg heq]
  by_cases hleft : x.here = m
  · exact .inl ⟨if_pos hleft, heq, hbase.eq_left_iff.mp hleft⟩
  rw [if_neg hleft]
  by_cases hright : x.there = m
  · exact .inr (.inl ⟨.inr (if_pos hright), hbase.symm.eq_left_iff.mp hright⟩)
  rw [if_neg hright]
  exact .inr (.inr ⟨rfl, fun h => hleft (hbase.eq_left_iff.mpr h),
    fun h => hright (hbase.symm.eq_left_iff.mpr h)⟩)

end Heads

end DaemonKeeper.Git
