import DaemonKeeper.Action
import DaemonKeeper.Rehearsal.Machine
import DaemonKeeper.Rehearsal.Rulebook
set_option autoImplicit false

/-!
# Rehearsal: the stage

A stage carries actions out on a machine that is a value, with a rulebook in place of git, cmake and
make.  A command that succeeds may leave something behind, as a real build leaves a binary.
-/

namespace DaemonKeeper.Rehearsal

/-- What a command that succeeds leaves behind, relative to its directory. -/
structure Aftermath where
  /-- How the commands begin. -/
  opening : String
  directory : Option String := none
  /-- The path and the body of a script. -/
  script : Option (String × String) := none
  deriving DecidableEq, Repr

/-- A machine with a rulebook. -/
structure Stage where
  machine : Machine := .fresh
  rulebook : Rulebook := {}
  /-- In the order in which they were declared. -/
  aftermaths : List Aftermath := []
  /-- As soon as this path leads to something, the operator interrupts. -/
  interruption : Option String := none

namespace Stage

/-- Leaves behind what a command leaves. -/
def leave (directory : Path) (m : Machine) (a : Aftermath) : Machine :=
  let m := match a.directory with
    | none => m
    | some path =>
      { m with files := (m.files.createDirectory m.here (directory.join path).text).2 }
  match a.script with
  | none => m
  | some (path, body) =>
    match m.writeScript (directory.join path).text body with
    | .ok m => m
    | .error _ => m

/-- Answers a command by the rulebook. -/
def answerCommand (s : Stage) (directory : Path) (command : Command) :
    Except Fault Output × Stage :=
  let (outcome, rulebook) := s.rulebook.answer directory command
  let s := { s with rulebook }
  match outcome with
  | .error fault => (.error fault, s)
  | .ok output =>
    let left := s.aftermaths.filter fun a => begins a.opening command.text
    (.ok output, { s with machine := left.foldl (leave directory) s.machine })

/-- The operator interrupts now. -/
def isInterrupted (interruption : Option String) (m : Machine) : Bool :=
  interruption.any fun path => m.files.exists? m.here path

/-- The stage answers a request. -/
def answer (q : Request) (s : Stage) : q.Reply × Stage :=
  match q with
  | .run directory command => s.answerCommand directory command
  | .pause duration =>
    let (interrupted, machine) := s.machine.awaitFor duration (isInterrupted s.interruption)
    (if interrupted then .interrupted else .elapsed, { s with machine })
  | q =>
    let (reply, machine) := s.machine.answer q
    (reply, { s with machine })

/-- Carries an action out. -/
def perform {α : Type} (s : Stage) (x : Action α) : α × Stage := x.runWith answer s

/-- Does something to the machine alone. -/
def onMachine {α : Type} (s : Stage) (f : Machine → α × Machine) : α × Stage :=
  let (a, machine) := f s.machine
  (a, { s with machine })

end Stage

end DaemonKeeper.Rehearsal
