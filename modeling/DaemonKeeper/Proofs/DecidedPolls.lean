import DaemonKeeper.Proofs.TreeVisits
set_option autoImplicit false

/-!
# Which node decides a poll (SPEC §3.3)

A poll of a tree asks the nodes in turn, the root first and then the nodes of each dependency in
order.  Only if every node says no does the poll say no.  Otherwise the first node that does not say
no decides: whether it has found something new or could not tell, its outcome is that of the whole
poll, and the nodes after it are not asked any more.  A checkout that a later node shares with an
earlier one is seen only on behalf of the earlier one.
-/

namespace DaemonKeeper.Project

variable {p node : Project} {nodes quiet later : List Project} {trace : List Exchange}
variable {outcome : Except Fault Bool}

/-- The nodes were asked in turn, and each of them has said no. -/
def AllQuiet (nodes : List Project) (trace : List Exchange) : Prop :=
  ∃ parts, trace = parts.flatten ∧ List.Forall₂ (fun node part =>
    Action.Runs node.repository.hasUpstreamChange.attempt part (.ok false)) nodes parts

/-- Some nodes have said no in turn, and the node asked after them has not: it has found something
new, or it has failed. -/
structure DecidedBy (quiet : List Project) (node : Project) (trace : List Exchange)
    (outcome : Except Fault Bool) : Prop where
  unquiet : outcome ≠ .ok false
  asked : ∃ before last, trace = before ++ last ∧ AllQuiet quiet before ∧
    Action.Runs node.repository.hasUpstreamChange.attempt last outcome

theorem allQuiet_iff_carried :
    AllQuiet nodes trace ↔ (Conduct.ofQuestions poll).Carried nodes trace none :=
  (Conduct.carried_none_iff (c := .ofQuestions poll)).symm

/-- What stops the questions is the decision of a node. -/
theorem decidedBy_iff_stoppedAt :
    nodes = quiet ++ node :: later ∧ DecidedBy quiet node trace outcome ↔
      (Conduct.ofQuestions poll).StoppedAt nodes quiet node later trace outcome := by
  constructor
  · rintro ⟨rfl, hunquiet, before, last, rfl, hbefore, hlast⟩
    exact ⟨List.append_cons .., before, last, rfl, allQuiet_iff_carried.mp hbefore, hunquiet, hlast⟩
  · rintro ⟨hnodes, before, last, rfl, hbefore, hunquiet, hlast⟩
    refine ⟨hnodes.trans (List.append_cons ..).symm, hunquiet, before, last, rfl, ?_, hlast⟩
    exact allQuiet_iff_carried.mpr hbefore

/-- The runs of a poll are those in which all nodes say no, and those that some node decides. -/
theorem runs_hasUpstreamChange_iff :
    Action.Runs p.hasUpstreamChange.attempt trace outcome ↔
      outcome = .ok false ∧ AllQuiet p.rootFirst trace ∨
        ∃ quiet node later, p.rootFirst = quiet ++ node :: later ∧
          DecidedBy quiet node trace outcome := by
  simp only [hasUpstreamChange_eq_anyM, Task.runs_anyM_iff, Conduct.carried_some_iff,
    allQuiet_iff_carried, decidedBy_iff_stoppedAt]

/-! ## Where a poll looks -/

/-- The request is a command of git in the checkout of one of some nodes. -/
def LooksAt (nodes : List Project) (q : Request) : Prop :=
  ∃ node ∈ nodes, ∃ arguments, q = .run node.repository.directory ⟨"git", arguments⟩

theorem looksAt_of_runs (hnode : node ∈ nodes)
    (h : Action.Runs node.repository.hasUpstreamChange.attempt trace outcome) :
    ∀ e ∈ trace, LooksAt nodes e.request := by
  have honly : node.repository.hasUpstreamChange.Only (LooksAt nodes) := by
    apply Git.Repository.only_hasUpstreamChange.mono
    rintro _ ⟨⟩ <;> exact ⟨node, hnode, _, rfl⟩
  exact Action.Only.of_runs honly h

/-- A poll that a node decides looks at the checkouts of the nodes up to it. -/
theorem DecidedBy.looksAt (h : DecidedBy quiet node trace outcome) :
    ∀ e ∈ trace, LooksAt (quiet ++ [node]) e.request := by
  obtain ⟨-, before, last, rfl, hbefore, hlast⟩ := h
  refine List.forall_mem_append.mpr ⟨?_, looksAt_of_runs (by simp) hlast⟩
  refine (allQuiet_iff_carried.mp hbefore).forall_exchange (fun other hother part hpart => ?_)
    fun other hother part _ hpart => ?_
  · exact looksAt_of_runs (List.mem_append_left _ hother) hpart
  · exact looksAt_of_runs (List.mem_append_left _ hother) hpart.2

/-! ## Main statement -/

/-- A poll of a tree says no if and only if every node has said no in turn.  Otherwise there is a
first node that has not: the nodes before it have said no, its outcome is that of the whole poll,
and with it the poll is over.  So every command is one of git in the checkout of a node up to that
one, and none is run in the checkout of a later node that does not share it with them. -/
theorem poll_decided_by_first_unquiet
    (h : Action.Runs p.hasUpstreamChange.attempt trace outcome) :
    (outcome = .ok false ↔ AllQuiet p.rootFirst trace) ∧
    (outcome ≠ .ok false → ∃ quiet node later, p.rootFirst = quiet ++ node :: later ∧
      DecidedBy quiet node trace outcome ∧
      (∀ e ∈ trace, LooksAt (quiet ++ [node]) e.request) ∧
      ∀ unasked ∈ later,
        (∀ asked ∈ quiet ++ [node],
          asked.repository.directory ≠ unasked.repository.directory) →
        ∀ e ∈ trace, ∀ command, e.request ≠ .run unasked.repository.directory command) := by
  refine ⟨⟨fun hno => ?_, fun hquiet => ?_⟩, fun hne => ?_⟩
  · rcases runs_hasUpstreamChange_iff.mp h with ⟨-, hquiet⟩ | ⟨_, _, _, -, hdecided⟩
    · exact hquiet
    · exact absurd hno hdecided.unquiet
  · -- All nodes saying no is a run of the poll, and the replies determine its outcome.
    have hno := runs_hasUpstreamChange_iff.mpr (.inl ⟨rfl, hquiet⟩)
    exact Action.runs_unique h hno
  · rcases runs_hasUpstreamChange_iff.mp h with ⟨hno, -⟩ | ⟨quiet, node, later, hnodes, hdecided⟩
    · exact absurd hno hne
    refine ⟨quiet, node, later, hnodes, hdecided, hdecided.looksAt, ?_⟩
    intro unasked _ hapart e he command hrun
    obtain ⟨asked, hasked, arguments, hlooks⟩ := hdecided.looksAt e he
    rw [hrun] at hlooks
    exact hapart asked hasked (Request.run.inj hlooks).1.symm

/-- A machine on which in one checkout every command names a commit of its own, so that its history
has diverged, and in the others all name the same one. -/
def divergingMachine (q : Request) (_ : Unit) : q.Reply × Unit :=
  match q with
  | .run directory command =>
    (.ok (.ofLines [if directory = ⟨"./right"⟩ then command.text else "aaa"]), ())
  | q => Config.steadyMachine q ()

/-- What is exchanged in a poll of the application on it. -/
def applicationPoll : List Exchange :=
  Action.traceWith divergingMachine application.hasUpstreamChange.attempt ()

/-- The application, the first library and the base say no, and the second library decides.  The
base stands below it once more and is not asked again. -/
theorem poll_decided_by_first_unquiet_application :
    Action.Runs application.hasUpstreamChange.attempt applicationPoll
      (.error (.divergedHistory ⟨"./right"⟩ "master")) ∧
    application.rootFirst.map (·.name) = ["app", "left", "base", "right", "base"] ∧
    ∃ quiet node later, application.rootFirst = quiet ++ node :: later ∧
      DecidedBy quiet node applicationPoll (.error (.divergedHistory ⟨"./right"⟩ "master")) := by
  have hend : (Action.runWith divergingMachine application.hasUpstreamChange.attempt ()).1 =
      .error (.divergedHistory ⟨"./right"⟩ "master") := rfl
  have hrun : Action.Runs application.hasUpstreamChange.attempt applicationPoll
      (.error (.divergedHistory ⟨"./right"⟩ "master")) :=
    hend ▸ Action.runs_traceWith divergingMachine application.hasUpstreamChange.attempt ()
  obtain ⟨quiet, node, later, hnodes, hdecided, -⟩ := (poll_decided_by_first_unquiet hrun).2 nofun
  exact ⟨hrun, rfl, quiet, node, later, hnodes, hdecided⟩

/-- What is exchanged on that machine when a node is asked alone. -/
def nodePoll (node : Project) : List Exchange :=
  Action.traceWith divergingMachine node.repository.hasUpstreamChange.attempt ()

theorem runs_nodePoll {answer : Except Fault Bool}
    (h : (Action.runWith divergingMachine node.repository.hasUpstreamChange.attempt ()).1 =
      answer) :
    Action.Runs node.repository.hasUpstreamChange.attempt (nodePoll node) answer := by
  rw [← h]
  exact Action.runs_traceWith divergingMachine _ ()

/-- The first thing that is asked of a node is to fetch. -/
theorem exists_fetch_mem_nodePoll (node : Project) : ∃ e ∈ nodePoll node,
    e.request = .run node.repository.directory ⟨"git", ["remote", "update"]⟩ :=
  ⟨_, List.mem_cons_self, rfl⟩

/-- The second library decides a poll of the application, and the one later node is the base.  Git
is run in the checkout of the base all the same, because the base stands below the first library,
too. -/
theorem shared_checkout_of_later_node_is_asked :
    ∃ trace quiet node unasked, Action.Runs application.hasUpstreamChange.attempt trace
        (.error (.divergedHistory ⟨"./right"⟩ "master")) ∧
      application.rootFirst = quiet ++ node :: [unasked] ∧
      DecidedBy quiet node trace (.error (.divergedHistory ⟨"./right"⟩ "master")) ∧
      ∃ e ∈ trace,
        e.request = .run unasked.repository.directory ⟨"git", ["remote", "update"]⟩ := by
  let base := named "base" []
  let left := named "left" [base]
  let right := named "right" [base]
  have hquiet : AllQuiet [application, left, base]
      [nodePoll application, nodePoll left, nodePoll base].flatten :=
    ⟨_, rfl, .cons (runs_nodePoll (by decide +kernel)) (.cons (runs_nodePoll (by decide +kernel))
      (.cons (runs_nodePoll (by decide +kernel)) .nil))⟩
  have hright : Action.Runs right.repository.hasUpstreamChange.attempt (nodePoll right)
      (.error (.divergedHistory ⟨"./right"⟩ "master")) := runs_nodePoll (by decide +kernel)
  have hdecided : DecidedBy [application, left, base] right
      ([nodePoll application, nodePoll left, nodePoll base].flatten ++ nodePoll right)
      (.error (.divergedHistory ⟨"./right"⟩ "master")) :=
    ⟨nofun, _, _, rfl, hquiet, hright⟩
  have hnodes : application.rootFirst = [application, left, base] ++ right :: [base] := rfl
  obtain ⟨e, he, hfetch⟩ := exists_fetch_mem_nodePoll base
  refine ⟨_, _, _, _, runs_hasUpstreamChange_iff.mpr (.inr ⟨_, _, _, hnodes, hdecided⟩), hnodes,
    hdecided, e, ?_, hfetch⟩
  exact List.mem_append_left _ (List.mem_flatten.mpr ⟨nodePoll base, by simp, he⟩)

end DaemonKeeper.Project
