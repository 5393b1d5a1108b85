import DaemonKeeper.Rehearsal.Shell.Interpreter
import DaemonKeeper.Request
set_option autoImplicit false

/-!
# Rehearsal: a machine that is a value

A machine has files, processes and a clock.  Time passes only while somebody sleeps: every process
runs until it sleeps, waits or ends, and then the clock goes on to the next that wakes.
-/

namespace DaemonKeeper.Rehearsal

/-- What a process is doing. -/
inductive Activity where
  | ready (program : Program Nat)
  /-- Sleeping until a moment. -/
  | asleep (wake : Nat) (program : Program Nat)
  /-- Waiting for a child. -/
  | awaiting (child : Nat) (next : Option Exit → Program Nat)
  | ended (exit : Exit)

/-- A process. -/
structure Process where
  pid : Nat
  parent : Nat
  group : Nat
  command : String
  dispositions : List (Nat × Disposition) := []
  /-- Signals that were caught and not yet asked for, the earliest first. -/
  pending : List Nat := []
  activity : Activity
  /-- The process that stands for what it writes. -/
  outlet : Nat
  /-- What was written, the latest first. -/
  stdout : List (List UInt8) := []
  stderr : List (List UInt8) := []

namespace Process

/-- It can go on. -/
def isReady (p : Process) : Bool :=
  match p.activity with
  | .ready _ => true
  | _ => false

/-- It has not ended. -/
def isAlive (p : Process) : Bool :=
  match p.activity with
  | .ended _ => false
  | _ => true

/-- How it ended. -/
def exit? (p : Process) : Option Exit :=
  match p.activity with
  | .ended exit => some exit
  | _ => none

/-- When it wakes. -/
def wake? (p : Process) : Option Nat :=
  match p.activity with
  | .asleep wake _ => some wake
  | _ => none

/-- What a signal does to it. -/
def disposition (p : Process) (number : Nat) : Disposition :=
  (p.dispositions.lookup number).getD .standard

/-- The line that the system tells about it. -/
def statusLine (p : Process) : String :=
  String.intercalate " "
    ([toString p.pid, "(" ++ p.command ++ ")", "S", toString p.parent, toString p.group,
      toString p.group] ++ List.replicate 46 "0") ++ "\n"

end Process

/-- A machine. -/
structure Machine where
  files : Files
  /-- The directory that relative paths start from. -/
  here : Place
  /-- Nanoseconds since 1970-01-01. -/
  now : Nat
  processes : List Process := []
  nextPid : Nat

namespace Machine

/-- The process id of the one whose actions are rehearsed. -/
def ownPid : Nat := 1000

/-- Where the system tells about processes. -/
def statusRoot : Place := ["proc"]

/-- A machine as it is at first. -/
def fresh : Machine :=
  let tool (name : String) : Place × Node := (["usr", "bin", name], .tool name)
  { here := ["tmp", "rehearsal"]
    now := 1700000000 * 1000000000
    nextPid := ownPid + 1
    files := ⟨
      [(["usr"], .directory), (["usr", "bin"], .directory), (["bin"], .link "usr/bin"),
        (["etc"], .directory),
        (["etc", "passwd"], .file 0o644 (Text.bytes "root:x:0:0:root:/root:/bin/sh\n")),
        (["dev"], .directory), (["dev", "null"], .sink), (["root"], .directory),
        (["tmp"], .directory), (["tmp", "rehearsal"], .directory)]
      ++ Tools.names.map tool⟩ }

/-! ## Processes -/

/-- The process with an id. -/
def process? (m : Machine) (pid : Nat) : Option Process := m.processes.find? (·.pid == pid)

/-- Replaces a process. -/
def update (m : Machine) (p : Process) : Machine :=
  { m with processes := m.processes.map fun q => if q.pid = p.pid then p else q }

/-- Forgets a process. -/
def reap (m : Machine) (pid : Nat) : Machine :=
  { m with processes := m.processes.filter (·.pid != pid) }

/-- Ends a process.  Its children are left to nobody, and one whose parent is gone is forgotten. -/
def finish (m : Machine) (p : Process) (exit : Exit) : Machine :=
  let orphan (q : Process) : Process := if q.parent = p.pid then { q with parent := 1 } else q
  let m := { m with processes := m.processes.map orphan }
  let ended := m.update { p with activity := .ended exit }
  if p.parent = 1 then m.reap p.pid
  else
    match m.process? p.parent with
    | none => ended
    | some q =>
      match q.activity with
      | .awaiting child next =>
        if child = p.pid then
          (m.reap p.pid).update { q with activity := .ready (next (some exit)) }
        else ended
      | _ => ended

/-- Signals that do nothing unless they are caught. -/
def isHarmless (number : Nat) : Bool := number ∈ [0, 17, 18, 19, 20, 21, 22, 23, 28]

/-- A process gets a signal. -/
def deliverTo (m : Machine) (number : Nat) (p : Process) : Machine :=
  if !p.isAlive then m
  else if number = 9 then m.finish p (.signal 9)
  else
    match p.disposition number with
    | .ignored => m
    | .standard => if isHarmless number then m else m.finish p (.signal number)
    | .caught =>
      let p := { p with pending := p.pending ++ [number] }
      match p.activity with
      | .awaiting _ next => m.update { p with activity := .ready (next none) }
      | _ => m.update p

/-- The processes that a target stands for: one, a group, or everyone. -/
def targets (m : Machine) (caller : Nat) (target : Int) : List Process :=
  m.processes.filter fun p =>
    if target = -1 then p.pid != caller
    else if target < 0 then (p.group : Int) = -target
    else if target = 0 then (m.process? caller).any fun q => q.group = p.group
    else (p.pid : Int) = target

/-- Sends a signal, and tells whether there was somebody to get it. -/
def send (m : Machine) (caller : Nat) (target : Int) (number : Nat) : Bool × Machine :=
  let ps := m.targets caller target
  (!ps.isEmpty, ps.foldl (fun m p => (m.process? p.pid).elim m (m.deliverTo number)) m)

/-- The files, with what the system tells about processes. -/
def visibleFiles (m : Machine) : Files :=
  let told (p : Process) : List (Place × Node) :=
    let place := statusRoot ++ [toString p.pid]
    [(place, .directory), (place ++ ["stat"], .file 0o444 (Text.bytes p.statusLine)),
      (place ++ ["comm"], .file 0o444 (Text.bytes (p.command ++ "\n")))]
  ⟨(statusRoot, .directory) :: m.processes.flatMap told ++ m.files.entries⟩

/-- The machine with other files; what the system tells cannot be changed. -/
def withFiles (m : Machine) (files : Files) : Machine := { m with files := files.erase statusRoot }

/-! ## Starting -/

/-- How far a script may go. -/
def reach : Nat := 1000000

/-- The program that carries something out in surroundings. -/
def programOf (x : Running Nat) (surroundings : Surroundings) : Program Nat := do
  let (outcome, _) ← x.run.run surroundings
  return Shell.statusOf outcome

/-- Starts a process of its own group in a directory; what it writes is kept or thrown away. -/
def launch (m : Machine) (directory : Place) (argv : List String) (keep : Bool) :
    Except IoFault (Nat × Machine) := do
  let image ← Image.ofCommand m.files directory argv
  let pid := m.nextPid
  let surroundings : Surroundings := {
    self := pid
    name := argv.headD ""
    bindings := [("PATH", String.intercalate ":" Image.searchPath)]
    directory
    sinks := if keep then [(1, .stdout), (2, .stderr)] else [(1, .nowhere), (2, .nowhere)] }
  let p : Process := {
    pid
    parent := ownPid
    group := pid
    command := image.command
    outlet := pid
    activity := .ready (programOf (Shell.runImage reach image) surroundings) }
  return (pid, { m with processes := m.processes ++ [p], nextPid := pid + 1 })

/-- Starts a script beside the process that asks for it. -/
def fork (m : Machine) (p : Process) (script : Shell.Script) (surroundings : Surroundings) :
    Nat × Machine :=
  let pid := m.nextPid
  let child : Process := {
    pid
    parent := p.pid
    group := p.group
    command := p.command
    outlet := p.outlet
    dispositions := p.dispositions.filter fun d => d.2 = .ignored
    activity := .ready (programOf (Shell.carryOut reach script) surroundings) }
  (pid, { m with processes := m.processes ++ [child], nextPid := pid + 1 })

/-! ## Running -/

/-- Notes what was written, if there is still somebody who stands for it. -/
def record (m : Machine) (outlet : Nat) (toStderr : Bool) (bytes : List UInt8) : Machine :=
  match m.process? outlet with
  | none => m
  | some q => m.update (if toStderr then { q with stderr := bytes :: q.stderr }
      else { q with stdout := bytes :: q.stdout })

/-- A program that sleeps takes this long at least. -/
def leastSleep : Nat := 1000000

/-- Replies to a call of a process, which then goes on. -/
def reply (m : Machine) (p : Process) (c : Call) (next : c.Reply → Program Nat) : Machine :=
  let goOn (p : Process) (program : Program Nat) : Process := { p with activity := .ready program }
  match c, next with
  | .look, next => m.update (goOn p (next m.visibleFiles))
  | .keep files, next => (m.withFiles files).update (goOn p (next ()))
  | .emit toStderr bytes, next => (m.update (goOn p (next ()))).record p.outlet toStderr bytes
  | .sleep duration, next =>
    let span := max duration.nanoseconds leastSleep
    m.update { p with activity := .asleep (m.now + span) (next ()) }
  | .signal target number, next =>
    -- The process goes on first, and the signal may be for itself.
    let exists_ := !(m.targets p.pid target).isEmpty
    ((m.update (goOn p (next exists_))).send p.pid target number).2
  | .dispose number disposition, next =>
    let others := p.dispositions.filter (·.1 != number)
    m.update { goOn p (next ()) with dispositions := (number, disposition) :: others }
  | .caught, next =>
    match p.pending with
    | [] => m.update (goOn p (next none))
    | n :: rest => m.update { goOn p (next (some n)) with pending := rest }
  | .rename command, next => m.update { goOn p (next ()) with command }
  | .fork script surroundings, next =>
    let (pid, m) := m.fork p script surroundings
    m.update (goOn p (next pid))
  | .wait child, next =>
    match m.process? child with
    | none => m.update (goOn p (next (some (.code 127))))
    | some q =>
      match q.exit? with
      | some exit => (m.reap child).update (goOn p (next (some exit)))
      | none => m.update { p with activity := .awaiting child next }
  | .yield, next =>
    { m with processes := m.processes.filter (·.pid != p.pid) ++ [goOn p (next ())] }

/-- One step of a process. -/
def step (m : Machine) (p : Process) : Machine :=
  match p.activity with
  | .ready (.done status) => m.finish p (.code (status % 256))
  | .ready (.call c next) => m.reply p c next
  | _ => m

/-- Steps as long as some process can go on, within a bound. -/
def run : Nat → Machine → Machine
  | 0, m => m
  | bound + 1, m =>
    match m.processes.find? Process.isReady with
    | none => m
    | some p => run bound (m.step p)

/-- How many steps are made before the clock goes on. -/
def slice : Nat := 5000

/-- Everybody who can goes on. -/
def settle (m : Machine) : Machine := run slice m

/-! ## Time -/

/-- How long a step of the clock is while somebody is busy. -/
def quantum : Nat := 10000000

/-- The moment at which something happens next. -/
def nextMoment? (m : Machine) : Option Nat :=
  if m.processes.any Process.isReady then some (m.now + quantum)
  else (m.processes.filterMap Process.wake?).min?

/-- Goes on to a moment and wakes who sleeps no longer. -/
def goTo (m : Machine) (moment : Nat) : Machine :=
  { m with
    now := max m.now moment
    processes := m.processes.map fun p =>
      match p.activity with
      | .asleep wake program => if wake ≤ moment then { p with activity := .ready program } else p
      | _ => p }

/-- How many moments are passed at most. -/
def momentLimit : Nat := 1000000

/-- Time passes until something is so, or until a deadline; tells whether it is so. -/
def passUntil (condition : Machine → Bool) (deadline : Nat) : Nat → Machine → Bool × Machine
  | 0, m => (condition m, m)
  | bound + 1, m =>
    let m := m.settle
    if condition m then (true, m)
    else
      match m.nextMoment? with
      | some moment =>
        if moment ≤ deadline then passUntil condition deadline bound (m.goTo moment)
        else
          let m := (m.goTo deadline).settle
          (condition m, m)
      | none =>
        let m := (m.goTo deadline).settle
        (condition m, m)

/-- Time passes until something is so, for a span at most; tells whether it is so. -/
def awaitFor (m : Machine) (span : Duration) (condition : Machine → Bool) : Bool × Machine :=
  passUntil condition (m.now + span.nanoseconds) momentLimit m

/-- A span of time passes. -/
def pass (m : Machine) (span : Duration) : Machine := (m.awaitFor span fun _ => false).2

/-! ## Commands -/

/-- A process has ended. -/
def hasEnded (pid : Nat) (m : Machine) : Bool := (m.process? pid).all fun p => !p.isAlive

/-- A process has ended, and so have those whose output it stands for. -/
def isComplete (pid : Nat) (m : Machine) : Bool :=
  hasEnded pid m && m.processes.all fun p => p.outlet != pid || !p.isAlive

/-- How long a command may take. -/
def patience : Duration := Duration.ofSeconds 1000000

/-- The place of a directory that something is to be run in. -/
def directoryAt (m : Machine) (path : Path) : Except IoFault Place := do
  match ← m.files.find m.here path.text with
  | (place, .directory) => return place
  | _ => .error .notADirectory

/-- Runs a command in a directory to its end. -/
def complete (m : Machine) (directory : Path) (command : Command) :
    Except IoFault Completion × Machine :=
  if command.argv.any fun a => '\x00' ∈ a.toList then (.error .nulInArgument, m)
  else
    match m.directoryAt directory with
    | .error fault => (.error fault, m)
    | .ok place =>
      match m.launch place command.argv true with
      | .error fault => (.error fault, m)
      | .ok (pid, m) =>
        let (_, m) := m.awaitFor patience (isComplete pid)
        match m.process? pid with
        | none => (.ok ⟨.code 0, [], []⟩, m)
        | some p =>
          (.ok ⟨p.exit?.getD (.code 0), p.stdout.reverse.flatten, p.stderr.reverse.flatten⟩,
            m.reap pid)

/-! ## Requests -/

/-- The number of a signal. -/
def numberOf : Signal → Nat
  | .terminate => 15
  | .kill => 9

/-- What is made of an outcome with the files after it. -/
def filed (m : Machine) (outcome : Except IoFault Unit × Files) : Except IoFault Unit × Machine :=
  (outcome.1, { m with files := outcome.2 })

/-- The machine answers a request. -/
def answer (q : Request) (m : Machine) : q.Reply × Machine :=
  match q with
  | .run directory command =>
    match m.complete directory command with
    | (.ok completion, m) => (completion.outcome command, m)
    | (.error fault, m) => (.error (.io fault), m)
  | .readFile path => (m.files.read m.here path.text, m)
  | .isDirectory path => (m.files.isDirectory m.here path.text, m)
  | .isExecutable path => (m.files.isExecutable m.here path.text, m)
  | .createDirectory path => m.filed (m.files.createDirectory m.here path.text)
  | .writeFile path text => m.filed (m.files.changed (m.files.write m.here path.text (Text.bytes text)))
  | .spawn executable arguments =>
    match m.launch m.here (executable.text :: arguments) false with
    | .ok (pid, m) => (.ok pid, m.settle)
    | .error fault => (.error fault, m)
  | .status pid => if hasEnded pid m then (.exited, m.reap pid) else (.alive, m)
  | .signal target signal =>
    match m.send ownPid target (numberOf signal) with
    | (true, m) => (.ok (), m.settle)
    | (false, m) => (.error .noSuchProcess, m)
  | .kill pid => (.ok (), (m.send ownPid pid 9).2.reap pid)
  | .sleep duration => ((), m.pass duration)
  | .pause duration => (.elapsed, m.pass duration)
  | .clock => (Calendar.LocalTime.ofSeconds (m.now / 1000000000 : Nat), m)

/-! ## Looking at processes -/

/-- The living children of the one whose actions are rehearsed. -/
def children (m : Machine) : List Process :=
  m.processes.filter fun p => p.parent = ownPid && p.isAlive

/-- How long something is awaited. -/
def waitingTime : Duration := Duration.ofSeconds 5

/-- Waits until a path leads to something. -/
def awaitPath (m : Machine) (path : String) : Bool × Machine :=
  m.awaitFor waitingTime fun m => m.files.exists? m.here path

/-- Waits until every child goes by a command name. -/
def awaitCommand (m : Machine) (command : String) : Bool × Machine :=
  m.awaitFor waitingTime fun m => m.children.all fun p => p.command = command

/-! ## Changes by the operator -/

/-- Creates the directory that a path lies in. -/
def ensureParent (m : Machine) (path : String) : Except IoFault Unit × Files :=
  let steps := (stepsOf path).filter Files.isMove
  m.files.ensureParents m.here (isAbsolute path) steps.dropLast.reverse

/-- Writes a file with permissions, and creates the directory that it lies in. -/
def writeFile (m : Machine) (path : String) (bytes : List UInt8) (mode : Nat) :
    Except IoFault Machine := do
  let (outcome, files) := m.ensureParent path
  outcome
  let files ← files.write m.here path bytes
  return { m with files := ← files.setMode m.here path mode }

/-- Writes a shell script that may be executed. -/
def writeScript (m : Machine) (path body : String) : Except IoFault Machine :=
  m.writeFile path (Text.bytes ("#!/bin/sh\n" ++ body ++ "\n")) 0o755

end Machine

end DaemonKeeper.Rehearsal
