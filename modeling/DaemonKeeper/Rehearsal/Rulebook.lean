import DaemonKeeper.Command
import DaemonKeeper.Fault
set_option autoImplicit false

/-!
# Rehearsal: the rulebook that answers commands (SPEC §3.1, §4.6)

A rulebook stands in for git, cmake and make.  It records every command with its directory and
answers by the latest rule whose opening begins the command's text.  A rule gives its replies in
turn and repeats the last.  Where no rule or no reply is at hand, the command succeeds silently.
-/

namespace DaemonKeeper.Rehearsal

/-- A prepared answer to a command. -/
inductive Answer where
  | output (o : Output)
  | failure (code : Int)
  deriving DecidableEq, Repr

/-- Answers for the commands whose text begins in one way. -/
structure Rule where
  opening : String
  answers : List Answer
  deriving DecidableEq, Repr

/-- A command as it was asked for. -/
structure Record where
  directory : Path
  text : String
  deriving DecidableEq, Repr

/-- Rules, the latest first, and the commands that were asked for, in order. -/
structure Rulebook where
  rules : List Rule := []
  records : List Record := []
  deriving DecidableEq, Repr

/-- A text begins with another. -/
def begins (opening text : String) : Bool := opening.toList.isPrefixOf text.toList

/-- The rule speaks for commands with this text. -/
def Rule.covers (r : Rule) (text : String) : Bool := begins r.opening text

/-- The rule after it has given an answer: the last one is kept. -/
def Rule.advance (r : Rule) : Rule :=
  match r.answers with
  | _ :: next :: rest => { r with answers := next :: rest }
  | _ => r

/-- What is made of an answer to a command with this text. -/
def Answer.outcome (text : String) : Answer → Except Fault Output
  | .output o => .ok o
  | .failure code => .error (.commandFailed text code [] [])

namespace Rulebook

/-- Adds a rule that precedes all others. -/
def add (b : Rulebook) (opening : String) (answers : List Answer) : Rulebook :=
  { b with rules := ⟨opening, answers⟩ :: b.rules }

/-- Answers with these lines, always. -/
def respond (b : Rulebook) (opening : String) (lines : List String) : Rulebook :=
  b.add opening [.output (.ofLines lines)]

/-- Answers with the outputs in turn. -/
def respondInTurn (b : Rulebook) (opening : String) (outputs : List (List String)) : Rulebook :=
  b.add opening (outputs.map fun lines => .output (.ofLines lines))

/-- Fails, always. -/
def fail (b : Rulebook) (opening : String) (code : Int) : Rulebook :=
  b.add opening [.failure code]

/-- The answer of the first rule that covers a text, and the rules after it was given. -/
def consult (text : String) : List Rule → Option Answer × List Rule
  | [] => (none, [])
  | r :: rest =>
    if r.covers text then (r.answers.head?, r.advance :: rest)
    else
      let (answer, rest) := consult text rest
      (answer, r :: rest)

/-- Records a command and answers it. -/
def answer (b : Rulebook) (directory : Path) (command : Command) :
    Except Fault Output × Rulebook :=
  let (answer, rules) := consult command.text b.rules
  let outcome := match answer with
    | none => .ok .silent
    | some a => a.outcome command.text
  (outcome, { rules, records := b.records ++ [⟨directory, command.text⟩] })

/-- The texts of the commands, in order. -/
def texts (b : Rulebook) : List String := b.records.map (·.text)

/-- How many commands begin with a text. -/
def count (b : Rulebook) (opening : String) : Nat := (b.texts.filter (begins opening)).length

end Rulebook

end DaemonKeeper.Rehearsal
