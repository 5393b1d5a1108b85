set_option autoImplicit false

/-!
# Configuration: cycles among dependencies (SPEC §4.1)

The topological sort behind the rule that no project comes after itself.  A directed graph over
names is checked for cycles in two sweeps.  The first goes depth-first along the edges and lists the
names by when they were finished, last first.  The second goes through that list and searches
against the edges: a search that finds a second name has found a cycle, because that name both
reaches the first and is reached from it.
-/

namespace DaemonKeeper

/-- A directed graph: its names in order, and for every name the names after it and before it. -/
structure Graph where
  nodes : List String
  successors : String → List String
  predecessors : String → List String

namespace Graph

variable (g : Graph)

/-- How many nodes have not been seen. -/
def unseen (seen : List String) : Nat := (g.nodes.filter (· ∉ seen)).length

theorem unseen_cons_lt {seen : List String} {name : String} (h : name ∈ g.nodes ∧ name ∉ seen) :
    g.unseen (name :: seen) < g.unseen seen := by
  obtain ⟨hm, hs⟩ := h
  simp only [unseen]
  generalize g.nodes = ns at hm
  have le : ∀ ms : List String,
      (ms.filter (· ∉ name :: seen)).length ≤ (ms.filter (· ∉ seen)).length := by
    intro ms
    induction ms with
    | nil => simp
    | cons m ms ih =>
      by_cases h1 : m ∈ seen
      · simpa [List.filter_cons, h1] using ih
      · by_cases h2 : m = name
        · subst h2; simp [h1] at ih ⊢; omega
        · simpa [List.filter_cons, h1, h2] using ih
  induction ns with
  | nil => simp at hm
  | cons n ns ih =>
    by_cases h : n = name
    · subst h
      have := le ns
      simp [hs] at this ⊢
      omega
    · have hm' : name ∈ ns := by
        rcases List.mem_cons.1 hm with h' | h'
        · exact absurd h'.symm h
        · exact h'
      have := ih hm'
      by_cases h1 : n ∈ seen
      · simpa [List.filter_cons, h1] using this
      · simpa [List.filter_cons, h1, h] using this

/-- Goes depth-first from the top of a stack.  A name that is met first is kept on the stack under
its unseen successors; when it is met again it is finished.  Answers the names seen and the names
finished, last first. -/
def finishFrom (seen finished : List String) : List String → List String × List String
  | [] => (seen, finished)
  | top :: below =>
    if _h : top ∈ g.nodes ∧ top ∉ seen then
      finishFrom (top :: seen) finished
        (((g.successors top).filter (· ∉ top :: seen)).reverse ++ top :: below)
    else finishFrom seen (if top ∈ finished then finished else top :: finished) below
termination_by stack => (g.unseen seen, stack.length)
decreasing_by
  · exact Prod.Lex.left _ _ (g.unseen_cons_lt _h)
  · exact Prod.Lex.right _ (by simp)

/-- Every name, by when the depth-first sweep finished it, last first. -/
def finishOrder : List String :=
  (g.nodes.foldl (fun (state : List String × List String) name =>
      if name ∈ state.1 then state else g.finishFrom state.1 state.2 [name]) ([], [])).2

/-- Searches against the edges from a stack.  Answers the names seen and those newly visited, in
order. -/
def searchBack (seen : List String) : List String → List String × List String
  | [] => (seen, [])
  | top :: below =>
    if _h : top ∈ g.nodes ∧ top ∉ seen then
      let (seen, visited) := searchBack (top :: seen)
        (((g.predecessors top).filter (· ∉ top :: seen)).reverse ++ below)
      (seen, top :: visited)
    else searchBack seen below
termination_by stack => (g.unseen seen, stack.length)
decreasing_by
  · exact Prod.Lex.left _ _ (g.unseen_cons_lt _h)
  · exact Prod.Lex.right _ (by simp)

/-- The first name that a search against the edges finds besides the name it starts from. -/
def secondVisited (seen : List String) : List String → Option String
  | [] => none
  | start :: rest =>
    match g.searchBack seen [start] with
    | (_, _ :: second :: _) => some second
    | (seen, _) => secondVisited seen rest

/-- A name on a cycle, if there is a cycle. -/
def cycle? : Option String := g.secondVisited [] g.finishOrder

end Graph

end DaemonKeeper
