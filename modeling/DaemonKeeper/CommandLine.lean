import DaemonKeeper.Config.Load
import DaemonKeeper.Text.Decimal
import DaemonKeeper.Text.Pieces
set_option autoImplicit false

/-!
# Command line (SPEC §4.4)

The options `--config`, `--log-level`, `--dry-run` and `--max-iterations`, next to `--help` and
`--version`.  They may stand in any order and each at most once.  A value is attached with `=` or
follows as an argument of its own, which then must not look like an option.  Nothing else is
accepted.

Arguments are read from the left.  A value of its own is looked at only when the next option or the
end settles it, so an argument that nobody knows is reported before it.
-/

namespace DaemonKeeper

/-- How much is logged. -/
inductive LogLevel where
  | error
  | warn
  | info
  | debug
  | trace
  deriving DecidableEq, Repr

namespace LogLevel

/-- How a level is written. -/
def name : LogLevel → String
  | .error => "error"
  | .warn => "warn"
  | .info => "info"
  | .debug => "debug"
  | .trace => "trace"

/-- Every level, the one that logs least first. -/
def all : List LogLevel := [.error, .warn, .info, .debug, .trace]

/-- The level that is written exactly like this. -/
def ofName? (s : String) : Option LogLevel := all.find? fun l => l.name = s

@[simp] theorem ofName?_name (level : LogLevel) : ofName? level.name = some level := by
  cases level <;> decide

end LogLevel

namespace CommandLine

/-- What a run was asked for. -/
structure Options where
  config : Path := Config.defaultPath
  logLevel : Option LogLevel := none
  dryRun : Bool := false
  maxCycles : Option Nat := none
  deriving DecidableEq, Repr

/-- Why there is no run. -/
inductive Refusal where
  | help
  | version
  | unknownArgument
  | repeated
  /-- A value is attached to an option that takes none. -/
  | unexpectedValue
  /-- A value is missing, empty, or none of those that there are. -/
  | invalidValue
  /-- A value is not a number of 64 bits. -/
  | unreadableNumber
  deriving DecidableEq, Repr

/-- Asking for help or the version is no mistake. -/
def Refusal.exitCode : Refusal → Nat
  | .help | .version => 0
  | _ => 2

/-! ## Options -/

/-- An option that takes a value. -/
inductive Valued where
  | config
  | logLevel
  | maxIterations
  deriving DecidableEq, Repr

/-- An option that takes none. -/
inductive Flag where
  | dryRun
  | help
  | version
  deriving DecidableEq, Repr

/-- An option. -/
inductive Known where
  | valued (o : Valued)
  | flag (f : Flag)
  deriving DecidableEq, Repr

/-- How an option is written after two dashes. -/
def Known.name : Known → String
  | .valued .config => "config"
  | .valued .logLevel => "log-level"
  | .valued .maxIterations => "max-iterations"
  | .flag .dryRun => "dry-run"
  | .flag .help => "help"
  | .flag .version => "version"

/-- Every option. -/
def Known.all : List Known :=
  [.valued .config, .valued .logLevel, .valued .maxIterations, .flag .dryRun, .flag .help,
    .flag .version]

/-- The option that is written exactly like this. -/
def Known.ofName? (s : String) : Option Known := all.find? fun k => k.name = s

@[simp] theorem Known.ofName?_name (k : Known) : Known.ofName? k.name = some k := by
  cases k with
  | valued o => cases o <;> decide
  | flag f => cases f <;> decide

/-- The flag of a letter after one dash. -/
def Flag.ofLetter? : Char → Option Flag
  | 'h' => some .help
  | 'V' => some .version
  | _ => none

/-! ## Arguments -/

/-- The form of one argument. -/
inductive Argument where
  /-- Two dashes alone: no options after this. -/
  | escape
  /-- Two dashes, a name, and perhaps a value after an equals sign. -/
  | long (name : String) (attached : Option String)
  /-- One dash and letters, of which the first decides. -/
  | short (letter : Char)
  | plain (text : String)
  deriving DecidableEq, Repr

/-- A name with the value after the first equals sign, if there is one. -/
def Argument.ofLong (cs : List Char) : Argument :=
  let name := String.ofList (cs.takeWhile (· != '='))
  match cs.dropWhile (· != '=') with
  | [] => .long name none
  | _ :: value => .long name (some (String.ofList value))

/-- The form of an argument. -/
def Argument.ofText (s : String) : Argument :=
  match s.toList with
  | ['-', '-'] => .escape
  | '-' :: '-' :: rest => .ofLong rest
  | '-' :: letter :: _ => .short letter
  | _ => .plain s

/-! ## Reading -/

/-- An option that awaits its value, or has it but was not settled yet. -/
inductive Pending where
  | awaiting (o : Valued)
  | held (o : Valued) (value : String)
  deriving DecidableEq, Repr

/-- What was read so far. -/
structure Reading where
  options : Options := {}
  given : List Known := []
  pending : Option Pending := none
  deriving DecidableEq, Repr

/-- The options with the value of one of them. -/
def Options.set (options : Options) : Valued → String → Except Refusal Options
  | .config, value =>
    if value.isEmpty then .error .invalidValue else .ok { options with config := ⟨value⟩ }
  | .logLevel, value =>
    match LogLevel.ofName? value with
    | some level => .ok { options with logLevel := some level }
    | none => .error .invalidValue
  | .maxIterations, value =>
    match Text.readBelow? Word.bound64 value.toList with
    | some n => .ok { options with maxCycles := some n }
    | none => .error .unreadableNumber

namespace Reading

/-- Notes that an option was given. -/
def note (r : Reading) (k : Known) : Except Refusal Reading :=
  if k ∈ r.given then .error .repeated else .ok { r with given := k :: r.given }

/-- Takes the value of an option. -/
def take (r : Reading) (o : Valued) (value : String) : Except Refusal Reading := do
  let r ← r.note (.valued o)
  let options ← r.options.set o value
  return { r with options }

/-- Settles the option that is pending. -/
def settle (r : Reading) : Except Refusal Reading :=
  match r.pending with
  | none => .ok r
  | some (.awaiting _) => .error .invalidValue
  | some (.held o value) => { r with pending := none }.take o value

/-- Raises a flag. -/
def raise (r : Reading) : Flag → Except Refusal Reading
  | .help => .error .help
  | .version => .error .version
  | .dryRun => do
    let r ← r.note (.flag .dryRun)
    return { r with options := { r.options with dryRun := true } }

/-- Reads an option written with two dashes. -/
def long (r : Reading) (name : String) (attached : Option String) : Except Refusal Reading :=
  match Known.ofName? name, attached with
  | none, _ => .error .unknownArgument
  | some (.flag _), some _ => .error .unexpectedValue
  | some (.flag f), none => do (← r.settle).raise f
  | some (.valued o), some value => do (← r.settle).take o value
  | some (.valued o), none => do return { (← r.settle) with pending := some (.awaiting o) }

/-- Reads an option written with one dash. -/
def short (r : Reading) (letter : Char) : Except Refusal Reading :=
  match Flag.ofLetter? letter with
  | none => .error .unknownArgument
  | some f => do (← r.settle).raise f

/-- Reads an argument that is no option: the value that is awaited. -/
def plain (r : Reading) (value : String) : Except Refusal Reading :=
  match r.pending with
  | some (.awaiting o) => .ok { r with pending := some (.held o value) }
  | _ => .error .unknownArgument

/-- Reads the remaining arguments. -/
def finish (r : Reading) : List String → Except Refusal Options
  | [] => do return (← r.settle).options
  | argument :: rest =>
    match Argument.ofText argument with
    | .escape => if rest.isEmpty then do return (← r.settle).options else .error .unknownArgument
    | .long name attached => do finish (← r.long name attached) rest
    | .short letter => do finish (← r.short letter) rest
    | .plain value => do finish (← r.plain value) rest

end Reading

/-- Reads the arguments of a command line, without the name of the program. -/
def parse (argv : List String) : Except Refusal Options := Reading.finish {} argv

end CommandLine

end DaemonKeeper
