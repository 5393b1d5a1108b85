import DaemonKeeper.Duration
import DaemonKeeper.Path
import DaemonKeeper.Text.Quoted
set_option autoImplicit false

/-!
# Configuration: what can be wrong with a file (SPEC §4.1, §4.2)

Two kinds of causes: a value in the file does not have the form that its place asks for, or the
sections do not fit together.  Each cause has one wording.
-/

namespace DaemonKeeper

/-! ## Values of the wrong form -/

/-- What was found in a place. -/
inductive Found where
  | integer (n : Int)
  /-- Beyond 64 bits, but inside 128 signed bits. -/
  | wideInteger (n : Int)
  /-- Beyond 127 bits, but inside 128 unsigned bits. -/
  | widestInteger (n : Int)
  | float (shown : String)
  | boolean (b : Bool)
  | text (s : String)
  | sequence
  | map
  | unitVariant
  deriving DecidableEq, Repr

/-- How a finding is named. -/
def Found.name : Found → String
  | .integer n => "integer `" ++ toString n ++ "`"
  | .wideInteger n => "integer `" ++ toString n ++ "` as i128"
  | .widestInteger n => "integer `" ++ toString n ++ "` as u128"
  | .float shown => "floating point `" ++ shown ++ "`"
  | .boolean b => "boolean `" ++ (if b then "true" else "false") ++ "`"
  | .text s => "string " ++ Text.quoted s
  | .sequence => "sequence"
  | .map => "map"
  | .unitVariant => "unit variant"

/-- A value that does not have the form its place asks for. -/
inductive FormFault where
  | wrongType (found : Found) (wanted : String)
  | outOfRange (n : Int) (wanted : String)
  | integerTooWide
  | floatTooWide
  | unsignedTooWide
  | unknownChoice (name : String) (choices : List String)
  | noTextOrTable
  | noElement
  | manyElements
  | fullContent (kind : String)
  | noTableContent (kind : String)
  | missingField (name : String)
  | tooFewElements (count : Nat) (record : String) (fields : Nat)
  | tooManyElements (count : Nat)
  | inDaemon (name : String) (key : Option String) (cause : FormFault)
  deriving DecidableEq, Repr

/-- Two choices are joined by `or`, more follow `one of`. -/
def choicesText (choices : List String) : String :=
  let quoted := choices.map fun c => "`" ++ c ++ "`"
  match quoted with
  | [a, b] => a ++ " or " ++ b
  | _ => "one of " ++ String.intercalate ", " quoted

/-- How a fault is worded. -/
def FormFault.message : FormFault → String
  | .wrongType found wanted => "invalid type: " ++ found.name ++ ", expected " ++ wanted
  | .outOfRange n wanted =>
    "invalid value: " ++ (Found.integer n).name ++ ", expected " ++ wanted
  | .integerTooWide => "integer number overflowed"
  | .floatTooWide => "floating-point number overflowed"
  | .unsignedTooWide => "u64 value was too large"
  | .unknownChoice name choices =>
    "unknown variant `" ++ name ++ "`, expected " ++ choicesText choices
  | .noTextOrTable => "wanted string or table"
  | .noElement => "wanted exactly 1 element, found 0 elements"
  | .manyElements => "wanted exactly 1 element, more than 1 element"
  | .fullContent kind => "expected empty " ++ kind
  | .noTableContent kind => "expected table, found " ++ kind
  | .missingField name => "missing field `" ++ name ++ "`"
  | .tooFewElements count record fields =>
    "invalid length " ++ toString count ++ ", expected struct " ++ record ++ " with "
      ++ toString fields ++ " elements"
  | .tooManyElements count =>
    "invalid length " ++ toString count ++ ", expected fewer elements in array"
  | .inDaemon name key cause =>
    "daemon '" ++ name ++ "': " ++ cause.message ++ "\n"
      ++ (match key with | some k => "in `" ++ k ++ "`\n" | none => "")

/-! ## Sections that do not fit together -/

/-- A rule that the sections break. -/
inductive ConfigFault where
  | noDaemons
  | blankOrganization
  | noStopChecks
  | blankRepository (project : String)
  | noJobs (project : String)
  | unknownDependency (project dependency : String)
  | selfDependency (project : String)
  | unknownProject (daemon project : String)
  | absoluteExecutable (daemon : String) (executable : Path)
  | pollInterval (cause : Duration.Fault)
  | stopPollInterval (cause : Duration.Fault)
  | noSuchProject (name : String)
  deriving DecidableEq, Repr

/-- How a broken rule is worded. -/
def ConfigFault.message : ConfigFault → String
  | .noDaemons => "config must contain at least one [daemon.<name>] section"
  | .blankOrganization => "[config].organization must not be empty"
  | .noStopChecks => "[config].stop_max_checks must be >= 1 (got 0)"
  | .blankRepository project => "project '" ++ project ++ "' has an empty `repository`"
  | .noJobs project => "project '" ++ project ++ "' must have jobs >= 1 (got 0)"
  | .unknownDependency project dependency =>
    "project '" ++ project ++ "' has unknown dependency '" ++ dependency ++ "' in `after`"
  | .selfDependency project => "project '" ++ project ++ "' cannot depend on itself in `after`"
  | .unknownProject daemon project =>
    "daemon '" ++ daemon ++ "' refers to unknown project '" ++ project ++ "'"
  | .absoluteExecutable daemon executable =>
    "daemon '" ++ daemon ++ "' executable must be relative to the build output, got "
      ++ Text.quoted executable.text
  | .pollInterval cause => "[config].poll_interval: " ++ cause.message
  | .stopPollInterval cause => "[config].stop_poll_interval: " ++ cause.message
  | .noSuchProject name => "unknown project '" ++ name ++ "'"

end DaemonKeeper
