import DaemonKeeper.CommandLine
import DaemonKeeper.Text.Alphanumeric
import DaemonKeeper.Text.Blank
import DaemonKeeper.Text.Utf8
set_option autoImplicit false

/-!
# Log filter (SPEC §4.3)

The filter is a list of directives between commas: a level, a target, or a target with a level after
an equals sign, where a span with fields may stand between the two.  The level on the command line
wins over the filter of the environment, and that over the default.

A directive is walked through without the white space around it, but its parts are cut out of the
text with that white space, at the offsets that the walk found.  So a directive that begins with
white space is cut too far left.
-/

namespace DaemonKeeper.LogFilter

/-- The environment variable that holds the filter. -/
def environmentName : String := "BUILDWATCH_LOG"

/-- The filter when nothing else says one. -/
def default : String := "info"

/-- The filter in effect for a level on the command line and a value in the environment. -/
def directive (level : Option LogLevel) (environment : Option String) : String :=
  match level, environment with
  | some l, _ => l.name
  | none, none => default
  | none, some value => if Text.isBlankText value then default else Text.trim value

/-- Why a text is no filter. -/
inductive Fault where
  /-- What stands after an equals sign is no level. -/
  | level
  /-- The directive has no form that is known. -/
  | form
  /-- A part would begin or end inside a character. -/
  | cut
  deriving DecidableEq, Repr

/-- The causes that are reported, outermost first. -/
def Fault.causes : Fault → List String
  | .level =>
    let cause := "error parsing level filter: expected one of \"off\", \"error\", \"warn\", "
      ++ "\"info\", \"debug\", \"trace\", or a number 0-5"
    [cause, cause]
  | .form => ["invalid filter directive"]
  | .cut => []

/-! ## Levels -/

/-- An ASCII letter in lower case. -/
def lowerAscii (c : Char) : Char := if 'A' ≤ c && c ≤ 'Z' then Char.ofNat (c.toNat + 32) else c

/-- A level, or `off`, in any case, or a number from 0 to 5. -/
def isLevel (cs : List Char) : Bool :=
  let word := String.ofList (cs.map lowerAscii)
  word = "" || word = "off" || (LogLevel.ofName? word).isSome
    || ((Text.readBelow? Word.bound64 cs).any fun n => n ≤ 5)

/-! ## Directives -/

/-- Where the walk through a directive is. -/
inductive Place where
  | start
  /-- In what may be a level or a target. -/
  | word
  | span
  /-- In a field of a span that began at this offset. -/
  | field (start : Nat)
  | fields
  /-- Behind a span. -/
  | target
  /-- In a level that began at this offset. -/
  | level (start : Nat)
  deriving DecidableEq, Repr

/-- The number of bytes of a text. -/
def width (cs : List Char) : Nat := (Text.encode cs).length

/-- The text after a number of bytes, unless that is inside a character. -/
def dropBytes? : Nat → List Char → Option (List Char)
  | 0, cs => some cs
  | _ + 1, [] => none
  | n + 1, c :: cs => if width [c] ≤ n + 1 then dropBytes? (n + 1 - width [c]) cs else none

/-- The text of a number of bytes at the front, unless it would end inside a character. -/
def takeBytes? (n : Nat) (cs : List Char) : Option (List Char) :=
  (dropBytes? n cs).map fun rest => cs.take (cs.length - rest.length)

/-- The text between two byte offsets. -/
def cut (whole : List Char) (first last : Nat) : Except Fault (List Char) :=
  match (takeBytes? last whole).bind (dropBytes? first) with
  | some part => .ok part
  | none => .error .cut

/-- The character can begin a directive that does not begin with a span. -/
def beginsWord (c : Char) : Bool := c = '-' || c = ':' || c = '_' || Text.isAlphanumeric c

/-- Goes on when a part could be cut out. -/
def after (part : Except Fault (List Char)) (next : Place) : Except Fault Place :=
  part.map fun _ => next

/-- Goes on when a part could be cut out and holds something. -/
def afterSome (part : Except Fault (List Char)) (next : Place) : Except Fault Place :=
  match part with
  | .ok [] => .error .form
  | .ok _ => .ok next
  | .error fault => .error fault

/-- One step of the walk, at a character and its offset. -/
def step (whole : List Char) (spanStart offset : Nat) (c : Char) : Place → Except Fault Place
  | .start =>
    if c = '[' then .ok .span else if beginsWord c then .ok .word else .error .form
  | .word =>
    if c = '=' then after (cut whole 0 offset) (.level (offset + 1))
    else if c = '[' then after (cut whole 0 offset) .span
    else .ok .word
  | .span =>
    if c = ']' then after (cut whole spanStart offset) .target
    else if c = '\x7b' then after (cut whole spanStart offset) (.field (offset + 1))
    else .ok .span
  | .field start =>
    if c = '\x7d' then afterSome (cut whole start offset) .fields
    else .ok (.field start)
  | .fields => if c = ']' then .ok .target else .error .form
  | .target => if c = '=' then .ok (.level (offset + 1)) else .error .form
  | .level start => .ok (.level start)

/-- The walk through what is left of a directive. -/
def walk (whole : List Char) : Nat → Nat → Place → List Char → Except Fault Place
  | _, _, place, [] => .ok place
  | spanStart, offset, place, c :: rest =>
    match step whole spanStart offset c place with
    | .error fault => .error fault
    | .ok next =>
      let begins := next = .span && place != .span
      walk whole (if begins then offset + 1 else spanStart) (offset + width [c]) next rest

/-- Where the walk may end. -/
def finish (whole : List Char) : Place → Except Fault Unit
  | .start | .word | .target => .ok ()
  | .level start => do
    let part ← cut whole start (width whole)
    if isLevel part then return () else .error .level
  | _ => .error .form

/-- A directive has a form that is known. -/
def checkDirective (cs : List Char) : Except Fault Unit := do
  finish cs (← walk cs 0 0 .start (Text.trimChars cs))

/-- Every directive between the commas has a form that is known; empty ones are left out. -/
def check (filter : String) : Except Fault Unit :=
  ((Text.pieces ',' filter.toList).filter (!·.isEmpty)).forM checkDirective

end DaemonKeeper.LogFilter
