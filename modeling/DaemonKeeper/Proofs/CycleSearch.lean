import DaemonKeeper.Config.Cycle
import Mathlib.Data.List.Basic
import Mathlib.Logic.Relation
import Mathlib.Tactic.ByContra
set_option autoImplicit false

/-!
# What the search for a cycle finds (SPEC §4.1)

The depth-first sweep keeps names on a stack.  A name that was met and is not finished lies there
under everything that was pushed on its account, so it reaches whatever lies over it.  From this
follows what the order of finishing is good for: if an edge leads from a name to one that was
finished after it, there is a way back.  The second sweep looks for just such an edge.  Hence the
name it reports lies on a cycle, and if it reports none, no edge leads back in the order and there
is no cycle.
-/

namespace DaemonKeeper.Graph

open Relation

variable {g : Graph} {seen finished stack below above : List String} {top x : String}

/-- An edge in the direction of the first sweep. -/
def Leads (g : Graph) (a b : String) : Prop := b ∈ g.successors a

/-- There is a way along the edges, perhaps of no step. -/
def Reaches (g : Graph) (a b : String) : Prop := ReflTransGen g.Leads a b

/-- Edges lead from nodes to nodes, in both views of them. -/
structure Closed (g : Graph) : Prop where
  successors : ∀ a, ∀ b ∈ g.successors a, b ∈ g.nodes
  predecessors : ∀ b, ∀ a ∈ g.predecessors b, a ∈ g.nodes ∧ b ∈ g.nodes

/-! ## The first sweep -/

/-- A name on the stack that was met and is not finished, with what lies over its uppermost place.
-/
structure Open (seen finished stack above : List String) (x : String) : Prop where
  split : ∃ below, stack = above ++ x :: below
  seen : x ∈ seen
  unfinished : x ∉ finished
  uppermost : x ∉ above

/-- What holds of the sweep at every moment. -/
structure Sweep (g : Graph) (seen finished stack : List String) : Prop where
  nodes : ∀ x ∈ stack, x ∈ g.nodes
  nodes_of_finished : ∀ x ∈ finished, x ∈ g.nodes
  seen_of_finished : ∀ x ∈ finished, x ∈ seen
  nodup : finished.Nodup
  onStack : ∀ x ∈ seen, x ∉ finished → x ∈ stack
  reaches : ∀ above x, Open seen finished stack above x → ∀ y ∈ above, g.Reaches x y
  pending : ∀ above x, Open seen finished stack above x → ∀ y ∈ g.successors x, y ∈ seen ∨ y ∈ above
  ordered : ∀ later x earlier, finished = later ++ x :: earlier →
    ∀ y ∈ g.successors x, y ∈ earlier ∨ g.Reaches y x

/-- The successors that are put on the stack over a name that is met first. -/
abbrev fresh (g : Graph) (seen : List String) (top : String) : List String :=
  ((g.successors top).filter (· ∉ top :: seen)).reverse

theorem mem_fresh_iff : x ∈ g.fresh seen top ↔ x ∈ g.successors top ∧ x ∉ top :: seen := by
  simp only [fresh, List.mem_reverse, List.mem_filter, decide_eq_true_eq]

/-- Whatever is open once a name was met is that name, or was open before. -/
theorem Open.of_discover
    (h : Open (top :: seen) finished (g.fresh seen top ++ top :: below) above x) :
    x = top ∧ above = g.fresh seen top ∨
      ∃ upper, above = g.fresh seen top ++ top :: upper ∧
        Open seen finished (top :: below) (top :: upper) x := by
  obtain ⟨⟨rest, hsplit⟩, hseen, hunfinished, huppermost⟩ := h
  rcases List.append_eq_append_iff.mp hsplit with ⟨upper, habove, hbelow⟩ | ⟨under, hfresh, hrest⟩
  · -- The name lies at the old top of the stack or deeper.
    cases upper with
    | nil =>
      obtain ⟨rfl, -⟩ := List.cons.inj hbelow
      exact .inl ⟨rfl, by simpa using habove⟩
    | cons first upper =>
      obtain ⟨rfl, hbelow⟩ := List.cons.inj hbelow
      have hne : x ≠ top := by
        rintro rfl
        exact huppermost (by simp [habove])
      refine .inr ⟨upper, habove, ⟨⟨rest, by rw [hbelow, List.cons_append]⟩, ?_, hunfinished, ?_⟩⟩
      · exact (List.mem_cons.mp hseen).resolve_left hne
      · intro hover
        exact huppermost (by rw [habove]; exact List.mem_append_right _ hover)
  · -- Nothing that was just pushed has been met.
    cases under with
    | nil =>
      obtain ⟨rfl, -⟩ := List.cons.inj hrest
      exact .inl ⟨rfl, by simpa using hfresh.symm⟩
    | cons first under =>
      obtain ⟨rfl, -⟩ := List.cons.inj hrest
      have hpushed : x ∈ g.fresh seen top := by simp [hfresh]
      exact absurd hseen (mem_fresh_iff.mp hpushed).2

/-- Whatever is open once the top was taken off was open under it. -/
theorem Open.of_pop (h : Open seen finished below above x) (hne : x ≠ top) :
    Open seen finished (top :: below) (top :: above) x := by
  obtain ⟨⟨rest, rfl⟩, hseen, hunfinished, huppermost⟩ := h
  refine ⟨⟨rest, rfl⟩, hseen, hunfinished, ?_⟩
  rw [List.mem_cons]
  rintro (heq | hover)
  · exact hne heq
  · exact huppermost hover

/-- A name is met first: its unseen successors are pushed over it. -/
theorem Sweep.discover (hclosed : g.Closed) (h : Sweep g seen finished (top :: below)) :
    Sweep g (top :: seen) finished (g.fresh seen top ++ top :: below) where
  nodes y hy := by
    rcases List.mem_append.mp hy with hy | hy
    · exact hclosed.successors top y (mem_fresh_iff.mp hy).1
    · exact h.nodes y hy
  nodes_of_finished := h.nodes_of_finished
  seen_of_finished y hy := List.mem_cons_of_mem top (h.seen_of_finished y hy)
  nodup := h.nodup
  onStack y hy hopen := by
    refine List.mem_append_right _ ?_
    rcases List.mem_cons.mp hy with rfl | hy
    · exact List.mem_cons_self
    · exact h.onStack y hy hopen
  reaches upper y hopen z hz := by
    rcases hopen.of_discover with ⟨rfl, rfl⟩ | ⟨under, rfl, hbefore⟩
    · exact .single (mem_fresh_iff.mp hz).1
    · have htop : g.Reaches y top := h.reaches _ y hbefore top List.mem_cons_self
      rcases List.mem_append.mp hz with hz | hz
      · exact htop.tail (mem_fresh_iff.mp hz).1
      · exact h.reaches _ y hbefore z hz
  pending upper y hopen z hz := by
    rcases hopen.of_discover with ⟨rfl, rfl⟩ | ⟨under, rfl, hbefore⟩
    · by_cases hseen : z ∈ y :: seen
      · exact .inl hseen
      · exact .inr (mem_fresh_iff.mpr ⟨hz, hseen⟩)
    · rcases h.pending _ y hbefore z hz with hseen | hover
      · exact .inl (List.mem_cons_of_mem top hseen)
      · exact .inr (List.mem_append_right _ hover)
  ordered := h.ordered

/-- A finished name is taken off. -/
theorem Sweep.drop (h : Sweep g seen finished (top :: below)) (htop : top ∈ finished) :
    Sweep g seen finished below where
  nodes y hy := h.nodes y (List.mem_cons_of_mem top hy)
  nodes_of_finished := h.nodes_of_finished
  seen_of_finished := h.seen_of_finished
  nodup := h.nodup
  onStack y hy hopen := by
    have hne : y ≠ top := fun heq => hopen (heq ▸ htop)
    exact (List.mem_cons.mp (h.onStack y hy hopen)).resolve_left hne
  reaches upper y hopen z hz := by
    have hne : y ≠ top := fun heq => hopen.unfinished (heq ▸ htop)
    exact h.reaches _ y (hopen.of_pop hne) z (List.mem_cons_of_mem top hz)
  pending upper y hopen z hz := by
    have hne : y ≠ top := fun heq => hopen.unfinished (heq ▸ htop)
    rcases h.pending _ y (hopen.of_pop hne) z hz with hseen | hover
    · exact .inl hseen
    · rcases List.mem_cons.mp hover with rfl | hover
      · exact .inl (h.seen_of_finished z htop)
      · exact .inr hover
  ordered := h.ordered

/-- The open name on top has nothing over it, so all its successors were met. -/
theorem Sweep.top_open (h : Sweep g seen finished (top :: below)) (hseen : top ∈ seen)
    (hopen : top ∉ finished) : ∀ y ∈ g.successors top, y ∈ seen := by
  intro y hy
  have htop : Open seen finished (top :: below) [] top :=
    ⟨⟨below, rfl⟩, hseen, hopen, List.not_mem_nil⟩
  exact (h.pending [] top htop y hy).resolve_right List.not_mem_nil

/-- Whatever is open reaches the top of the stack. -/
theorem Sweep.reaches_top (h : Sweep g seen finished (top :: below)) (hseen : x ∈ seen)
    (hopen : x ∉ finished) : g.Reaches x top := by
  by_cases heq : x = top
  · rw [heq]
    exact .refl
  · have hbelow : x ∈ below := (List.mem_cons.mp (h.onStack x hseen hopen)).resolve_left heq
    obtain ⟨upper, rest, rfl, hfirst⟩ := List.eq_append_cons_of_mem hbelow
    have hx : Open seen finished (upper ++ x :: rest) upper x := ⟨⟨rest, rfl⟩, hseen, hopen, hfirst⟩
    exact h.reaches (top :: upper) x (hx.of_pop heq) top List.mem_cons_self

/-- A name that is met again is finished. -/
theorem Sweep.finish (h : Sweep g seen finished (top :: below)) (hseen : top ∈ seen)
    (hopen : top ∉ finished) : Sweep g seen (top :: finished) below where
  nodes y hy := h.nodes y (List.mem_cons_of_mem top hy)
  nodes_of_finished y hy := by
    rcases List.mem_cons.mp hy with rfl | hy
    · exact h.nodes y List.mem_cons_self
    · exact h.nodes_of_finished y hy
  seen_of_finished y hy := by
    rcases List.mem_cons.mp hy with rfl | hy
    · exact hseen
    · exact h.seen_of_finished y hy
  nodup := List.nodup_cons.mpr ⟨hopen, h.nodup⟩
  onStack y hy hunfinished := by
    obtain ⟨hne, hunfinished⟩ := not_or.mp (mt List.mem_cons.mpr hunfinished)
    exact (List.mem_cons.mp (h.onStack y hy hunfinished)).resolve_left hne
  reaches upper y hy z hz := by
    obtain ⟨hne, hunfinished⟩ := not_or.mp (mt List.mem_cons.mpr hy.unfinished)
    have hbefore : Open seen finished below upper y :=
      ⟨hy.split, hy.seen, hunfinished, hy.uppermost⟩
    exact h.reaches _ y (hbefore.of_pop hne) z (List.mem_cons_of_mem top hz)
  pending upper y hy z hz := by
    obtain ⟨hne, hunfinished⟩ := not_or.mp (mt List.mem_cons.mpr hy.unfinished)
    have hbefore : Open seen finished below upper y :=
      ⟨hy.split, hy.seen, hunfinished, hy.uppermost⟩
    rcases h.pending _ y (hbefore.of_pop hne) z hz with hseen' | hover
    · exact .inl hseen'
    · rcases List.mem_cons.mp hover with rfl | hover
      · exact .inl hseen
      · exact .inr hover
  ordered later y earlier hsplit z hz := by
    cases later with
    | nil =>
      -- A successor of the name on top was met; unless it is finished, it reaches the top.
      obtain ⟨rfl, rfl⟩ := List.cons.inj hsplit
      by_cases hfinished : z ∈ finished
      · exact .inl hfinished
      · exact .inr (h.reaches_top (h.top_open hseen hopen z hz) hfinished)
    | cons first later =>
      obtain ⟨-, hsplit⟩ := List.cons.inj hsplit
      exact h.ordered later y earlier hsplit z hz

/-- Nothing was met and nothing is to be done. -/
theorem Sweep.nil (g : Graph) : Sweep g [] [] [] where
  nodes := nofun
  nodes_of_finished := nofun
  seen_of_finished := nofun
  nodup := List.nodup_nil
  onStack := nofun
  reaches _ _ hopen := nomatch hopen.seen
  pending _ _ hopen := nomatch hopen.seen
  ordered later x earlier hsplit := by simp at hsplit

/-- With nothing open, any node may be put on the stack. -/
theorem Sweep.push (h : Sweep g seen finished []) (hx : x ∈ g.nodes) :
    Sweep g seen finished [x] := by
  have hfinished : ∀ y ∈ seen, y ∈ finished := by
    intro y hy
    by_contra hopen
    exact List.not_mem_nil (h.onStack y hy hopen)
  refine ⟨?_, h.nodes_of_finished, h.seen_of_finished, h.nodup, ?_, ?_, ?_, h.ordered⟩
  · intro y hy
    rw [List.mem_singleton.mp hy]
    exact hx
  · exact fun y hy hopen => absurd (hfinished y hy) hopen
  · exact fun _ y hopen => absurd (hfinished y hopen.seen) hopen.unfinished
  · exact fun _ y hopen => absurd (hfinished y hopen.seen) hopen.unfinished

/-- The sweep empties its stack.  It forgets nothing it has seen, and has seen all that was on the
stack. -/
theorem Sweep.finishFrom (hclosed : g.Closed) (h : Sweep g seen finished stack) :
    Sweep g (g.finishFrom seen finished stack).1 (g.finishFrom seen finished stack).2 [] ∧
      ∀ x, x ∈ seen ∨ x ∈ stack → x ∈ (g.finishFrom seen finished stack).1 := by
  fun_induction Graph.finishFrom g seen finished stack with
  | case1 seen finished => exact ⟨h, fun x hx => hx.resolve_right List.not_mem_nil⟩
  | case2 seen finished top below hnew ih =>
    rw [List.unattach_reverse, @List.unattach_filter _ _ _ _ _ fun _ _ => rfl,
      List.unattach_attach] at ih
    obtain ⟨hsweep, hmore⟩ := ih (h.discover hclosed)
    refine ⟨hsweep, fun x hx => hmore x ?_⟩
    rcases hx with hx | hx
    · exact .inl (List.mem_cons_of_mem top hx)
    · exact .inr (List.mem_append_right _ hx)
  | case3 seen finished top below hmet ih =>
    have htop : top ∈ seen := by
      by_contra hunseen
      exact hmet ⟨h.nodes top List.mem_cons_self, hunseen⟩
    simp only [dite_eq_ite] at ih
    have hnext : Sweep g seen (if top ∈ finished then finished else top :: finished) below := by
      split
      · rename_i hfinished
        exact h.drop hfinished
      · rename_i hopen
        exact h.finish htop hopen
    obtain ⟨hsweep, hmore⟩ := ih hnext
    refine ⟨hsweep, fun x hx => hmore x ?_⟩
    rcases hx with hx | hx
    · exact .inl hx
    · rcases List.mem_cons.mp hx with rfl | hx
      · exact .inl htop
      · exact .inr hx

/-- The sweep from one node, unless it was met before. -/
def sweepNode (g : Graph) (state : List String × List String) (name : String) :
    List String × List String :=
  if name ∈ state.1 then state else g.finishFrom state.1 state.2 [name]

/-- The order of finishing is the sweep from every node in turn. -/
theorem finishOrder_eq_foldl (g : Graph) :
    g.finishOrder = (g.nodes.foldl g.sweepNode ([], [])).2 := rfl

/-- Sweeping from some nodes in turn. -/
theorem Sweep.foldl (hclosed : g.Closed) {names : List String}
    (state : List String × List String) (hnames : ∀ x ∈ names, x ∈ g.nodes)
    (h : Sweep g state.1 state.2 []) :
    Sweep g (names.foldl g.sweepNode state).1 (names.foldl g.sweepNode state).2 [] ∧
      ∀ x, x ∈ state.1 ∨ x ∈ names → x ∈ (names.foldl g.sweepNode state).1 := by
  induction names generalizing state with
  | nil => exact ⟨h, fun x hx => hx.resolve_right List.not_mem_nil⟩
  | cons name rest ih =>
    have hnext : Sweep g (g.sweepNode state name).1 (g.sweepNode state name).2 [] ∧
        ∀ x, x ∈ state.1 ∨ x = name → x ∈ (g.sweepNode state name).1 := by
      unfold sweepNode
      split
      · rename_i hseen
        refine ⟨h, ?_⟩
        rintro x (hx | rfl)
        · exact hx
        · exact hseen
      · obtain ⟨hsweep, hmore⟩ := (h.push (hnames name List.mem_cons_self)).finishFrom hclosed
        refine ⟨hsweep, fun x hx => hmore x ?_⟩
        rwa [List.mem_singleton]
    obtain ⟨hsweep, hmore⟩ := ih (g.sweepNode state name)
      (fun x hx => hnames x (List.mem_cons_of_mem name hx)) hnext.1
    refine ⟨hsweep, fun x hx => hmore x ?_⟩
    rcases hx with hx | hx
    · exact .inl (hnext.2 x (.inl hx))
    · rcases List.mem_cons.mp hx with hx | hx
      · exact .inl (hnext.2 x (.inr hx))
      · exact .inr hx

/-- The order of finishing has every node once.  An edge leads to a name that was finished before,
or there is a way back along it. -/
theorem finishOrder_cases (hclosed : g.Closed) :
    g.finishOrder.Nodup ∧ (∀ x, x ∈ g.finishOrder ↔ x ∈ g.nodes) ∧
      ∀ later x earlier, g.finishOrder = later ++ x :: earlier →
        ∀ y ∈ g.successors x, y ∈ earlier ∨ g.Reaches y x := by
  obtain ⟨hsweep, hseen⟩ := Sweep.foldl hclosed ([], []) (fun x hx => hx) (Sweep.nil g)
  rw [finishOrder_eq_foldl]
  refine ⟨hsweep.nodup, fun x => ⟨hsweep.nodes_of_finished x, fun hx => ?_⟩, hsweep.ordered⟩
  by_contra hopen
  exact List.not_mem_nil (hsweep.onStack x (hseen x (.inr hx)) hopen)

/-! ## The second sweep -/

/-- The search from a name that was not seen finds one of its unseen predecessors next, if there is
one; otherwise it goes on to the next name. -/
theorem secondVisited_cons_of_unseen (hclosed : g.Closed) {start : String} (rest : List String)
    (hnode : start ∈ g.nodes) (hunseen : start ∉ seen) :
    (∃ second ∈ g.predecessors start, second ∉ start :: seen ∧
      g.secondVisited seen (start :: rest) = some second) ∨
    (∀ a ∈ g.predecessors start, a ∈ start :: seen) ∧
      g.secondVisited seen (start :: rest) = g.secondVisited (start :: seen) rest := by
  rw [secondVisited, searchBack, dif_pos ⟨hnode, hunseen⟩, List.append_nil]
  cases hpushed : ((g.predecessors start).filter (· ∉ start :: seen)).reverse with
  | nil =>
    have hall : ∀ a ∈ g.predecessors start, a ∈ start :: seen := by
      intro a ha
      by_contra hnew
      have hmem : a ∈ ((g.predecessors start).filter (· ∉ start :: seen)).reverse :=
        List.mem_reverse.mpr (List.mem_filter.mpr ⟨ha, decide_eq_true hnew⟩)
      rw [hpushed] at hmem
      exact List.not_mem_nil hmem
    rw [searchBack]
    exact .inr ⟨hall, rfl⟩
  | cons second others =>
    have hmem : second ∈ ((g.predecessors start).filter (· ∉ start :: seen)).reverse := by
      rw [hpushed]
      exact List.mem_cons_self
    obtain ⟨hpred, hnew⟩ := List.mem_filter.mp (List.mem_reverse.mp hmem)
    have hnew : second ∉ start :: seen := of_decide_eq_true hnew
    rw [searchBack, dif_pos ⟨(hclosed.predecessors start second hpred).1, hnew⟩]
    exact .inl ⟨second, hpred, hnew, rfl⟩

/-- What the second sweep finds in an order of nodes none of which was seen. -/
theorem secondVisited_cases (hclosed : g.Closed) {order : List String}
    (hnodes : ∀ x ∈ order, x ∈ g.nodes) (hnodup : order.Nodup) (hunseen : ∀ x ∈ order, x ∉ seen) :
    (∃ second before start rest, g.secondVisited seen order = some second ∧
      order = before ++ start :: rest ∧ second ∈ g.predecessors start ∧
      second ∉ seen ∧ second ∉ before ∧ second ≠ start) ∨
    g.secondVisited seen order = none ∧ ∀ before start rest, order = before ++ start :: rest →
      ∀ a ∈ g.predecessors start, a = start ∨ a ∈ seen ∨ a ∈ before := by
  induction order generalizing seen with
  | nil => exact .inr ⟨rfl, fun before start rest hsplit => by simp at hsplit⟩
  | cons first order ih =>
    obtain ⟨hfirst, hnodup⟩ := List.nodup_cons.mp hnodup
    obtain ⟨hnode, hnodes⟩ := List.forall_mem_cons.mp hnodes
    obtain ⟨hnew, hunseen⟩ := List.forall_mem_cons.mp hunseen
    have hlater : ∀ x ∈ order, x ∉ first :: seen := by
      intro x hx hmem
      rcases List.mem_cons.mp hmem with rfl | hmem
      · exact hfirst hx
      · exact hunseen x hx hmem
    rcases secondVisited_cons_of_unseen hclosed order hnode hnew with
      ⟨second, hpred, hsecond, hfound⟩ | ⟨hall, hnext⟩
    · obtain ⟨hne, hunseen⟩ := not_or.mp (mt List.mem_cons.mpr hsecond)
      exact .inl ⟨second, [], first, order, hfound, rfl, hpred, hunseen, List.not_mem_nil, hne⟩
    rw [hnext]
    rcases ih hnodes hnodup hlater with
      ⟨second, before, start, rest, hfound, rfl, hpred, hsecond, hbefore, hne⟩ | ⟨hnone, hpreds⟩
    · obtain ⟨hne', hunseen⟩ := not_or.mp (mt List.mem_cons.mpr hsecond)
      refine .inl ⟨second, first :: before, start, rest, hfound, rfl, hpred, hunseen, ?_, hne⟩
      rw [List.mem_cons]
      exact not_or.mpr ⟨hne', hbefore⟩
    · refine .inr ⟨hnone, fun before start rest hsplit a ha => ?_⟩
      cases before with
      | nil =>
        obtain ⟨rfl, -⟩ := List.cons.inj hsplit
        rcases List.mem_cons.mp (hall a ha) with heq | hseen
        · exact .inl heq
        · exact .inr (.inl hseen)
      | cons first' before =>
        obtain ⟨rfl, horder⟩ := List.cons.inj hsplit
        rcases hpreds before start rest horder a ha with heq | hseen | hbefore
        · exact .inl heq
        · rcases List.mem_cons.mp hseen with rfl | hseen
          · exact .inr (.inr List.mem_cons_self)
          · exact .inr (.inl hseen)
        · exact .inr (.inr (List.mem_cons_of_mem _ hbefore))

/-! ## Cycles -/

/-- A name that is reported lies on a cycle. -/
theorem transGen_of_cycle?_eq_some (hclosed : g.Closed)
    (hmirror : ∀ a b, a ∈ g.predecessors b → b ∈ g.successors a) (h : g.cycle? = some x) :
    TransGen g.Leads x x := by
  obtain ⟨hnodup, hmem, hordered⟩ := finishOrder_cases hclosed
  unfold cycle? at h
  rcases secondVisited_cases hclosed (fun y hy => (hmem y).mp hy) hnodup
      (fun y _ => List.not_mem_nil) with
    ⟨second, before, start, rest, hfound, hsplit, hpred, -, hbefore, hne⟩ | ⟨hnone, -⟩
  · obtain rfl : second = x := Option.some.inj (hfound.symm.trans h)
    -- The edge leads back in the order: its source was finished before its target.
    have hrest : second ∈ rest := by
      have hall : second ∈ before ++ start :: rest := by
        rw [← hsplit]
        exact (hmem second).mpr (hclosed.predecessors start second hpred).1
      rcases List.mem_append.mp hall with hb | hs
      · exact absurd hb hbefore
      · exact (List.mem_cons.mp hs).resolve_left hne
    obtain ⟨mid, earlier, rfl⟩ := List.append_of_mem hrest
    have hsource : g.finishOrder = (before ++ start :: mid) ++ second :: earlier := by
      rw [hsplit, List.append_assoc]
      rfl
    have hedge : start ∈ g.successors second := hmirror second start hpred
    rcases hordered _ second earlier hsource start hedge with hearlier | hback
    · rw [hsource, List.nodup_append] at hnodup
      refine absurd rfl (hnodup.2.2 start ?_ start (List.mem_cons_of_mem second hearlier))
      exact List.mem_append_right _ List.mem_cons_self
    · exact TransGen.head' hedge hback
  · rw [hnone] at h
    cases h

/-- Where no name is its own predecessor and none is reported, every predecessor of a name stands
before it in the order of finishing. -/
theorem idxOf_lt_of_cycle?_eq_none (hclosed : g.Closed) (hirrefl : ∀ a, a ∉ g.predecessors a)
    (h : g.cycle? = none) {a b : String} (hab : a ∈ g.predecessors b) :
    g.finishOrder.idxOf a < g.finishOrder.idxOf b := by
  obtain ⟨hnodup, hmem, -⟩ := finishOrder_cases hclosed
  unfold cycle? at h
  rcases secondVisited_cases hclosed (fun y hy => (hmem y).mp hy) hnodup
      (fun y _ => List.not_mem_nil) with
    ⟨second, before, start, rest, hfound, -⟩ | ⟨-, hpreds⟩
  · rw [h] at hfound
    cases hfound
  obtain ⟨before, rest, hsplit, hfirst⟩ := List.eq_append_cons_of_mem
    ((hmem b).mpr (hclosed.predecessors b a hab).2)
  have hbefore : a ∈ before := by
    rcases hpreds before b rest hsplit a hab with rfl | hnil | hbefore
    · exact absurd hab (hirrefl a)
    · exact absurd hnil List.not_mem_nil
    · exact hbefore
  rw [hsplit, List.idxOf_append_of_mem hbefore, List.idxOf_append_of_notMem hfirst]
  have hlt := List.idxOf_lt_length_of_mem hbefore
  omega

end DaemonKeeper.Graph
