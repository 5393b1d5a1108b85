set_option autoImplicit false

/-!
# Commands (SPEC §3.1)

What the command runner is given, and the output that it answers.  A command is a program with its
arguments, run directly and never through a shell: `arg` and `args` add at the end, and a wrapper
such as `sudo` goes in front (`wrapped`).  The text of a command is what the log, the faults and the
prepared answers of a rehearsal know it by.
-/

namespace DaemonKeeper

/-- A program with its arguments. -/
structure Command where
  program : String
  arguments : List String
  deriving DecidableEq, Repr, Inhabited

namespace Command

/-- A program without arguments. -/
def new (program : String) : Command := ⟨program, []⟩

/-- Adds one argument at the end. -/
def arg (c : Command) (a : String) : Command := { c with arguments := c.arguments ++ [a] }

/-- Adds arguments at the end. -/
def args (c : Command) (as : List String) : Command := { c with arguments := c.arguments ++ as }

/-- Puts a wrapper in front.  An empty one changes nothing. -/
def wrapped (c : Command) : List String → Command
  | [] => c
  | program :: rest => ⟨program, rest ++ c.program :: c.arguments⟩

/-- The program followed by the arguments. -/
def argv (c : Command) : List String := c.program :: c.arguments

@[simp] theorem argv_new (program : String) : (new program).argv = [program] := rfl

@[simp] theorem argv_arg (c : Command) (a : String) : (c.arg a).argv = c.argv ++ [a] := rfl

@[simp] theorem argv_args (c : Command) (as : List String) : (c.args as).argv = c.argv ++ as := rfl

@[simp] theorem argv_wrapped (c : Command) (wrapper : List String) :
    (c.wrapped wrapper).argv = wrapper ++ c.argv := by
  cases wrapper <;> rfl

/-- How the command is told: the program, and then a space and the argument for each argument. -/
def text (c : Command) : String := c.arguments.foldl (fun told a => told ++ " " ++ a) c.program

end Command

/-- What a command that succeeded left: its exit code and the lines it wrote. -/
structure Output where
  code : Int
  stdout : List String
  stderr : List String
  deriving DecidableEq, Repr, Inhabited

namespace Output

/-- Success without output. -/
def silent : Output := ⟨0, [], []⟩

/-- Success with these lines on standard output. -/
def ofLines (lines : List String) : Output := ⟨0, lines, []⟩

end Output

end DaemonKeeper
