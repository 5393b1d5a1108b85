import DaemonKeeper.Config.Fault
import DaemonKeeper.Decimal.Binary64
import DaemonKeeper.Toml.Value
import DaemonKeeper.Word
set_option autoImplicit false

/-!
# Configuration: the form of single values (SPEC §4.1)

A value is asked for in a form: a text, a flag, a number, a list, a choice among names, or a record
with fields.  Records may be written as tables or, with the fields in order, as arrays.  The
sections of daemons are read from a document that was already taken in once as generic values, which
shows in how dates are seen and in some wordings; the stage tells the two apart.
-/

namespace DaemonKeeper.Config

/-- Where a value is read from: straight from the document, or from a generic value. -/
inductive Stage where
  | document
  | generic
  deriving DecidableEq, Repr

/-- What a value shows itself as. -/
inductive Seen where
  | found (f : Found)
  | integer (n : Int)
  | text (s : String)
  | boolean (b : Bool)
  | sequence (elements : List Toml.Value)
  | map (entries : Toml.Table)

/-- What was found, for a message. -/
def Seen.found? : Seen → Found
  | .found f => f
  | .integer n => .integer n
  | .text s => .text s
  | .boolean b => .boolean b
  | .sequence _ => .sequence
  | .map _ => .map

/-- How a float is shown: the shortest decimal of the nearest binary number. -/
def floatText : Toml.Float → Option String
  | .finite negative digits exponent =>
    (Decimal.ofDecimal digits exponent).map fun b =>
      let (ds, e) := Decimal.shortest b
      (if negative then "-" else "") ++ Decimal.positional ds e
  | .infinite negative => some (if negative then "-inf" else "inf")
  | .notANumber => some "NaN"

/-- How an integer shows itself, by its width. -/
def seeInteger : Option Int → Except FormFault Seen
  | none => .error .integerTooWide
  | some n =>
    if -Word.bound63 ≤ n && n < Word.bound64 then .ok (.integer n)
    else if -Word.bound127 ≤ n && n < Word.bound127 then .ok (.found (.wideInteger n))
    else if 0 ≤ n && n < Word.bound128 then .ok (.found (.widestInteger n))
    else .error .integerTooWide

/-- The name under which a date or time stands in the map it shows itself as. -/
def datetimeKey : String := "$__toml_private_datetime"

/-- What a value shows itself as. -/
def see (stage : Stage) : Toml.Value → Except FormFault Seen
  | .text s => .ok (.text s)
  | .integer n => seeInteger n
  | .float f =>
    match floatText f with
    | some shown => .ok (.found (.float shown))
    | none => .error .floatTooWide
  | .boolean b => .ok (.boolean b)
  | .datetime d =>
    match stage with
    | .document => .ok (.map [(datetimeKey, .text d.text)])
    | .generic => .ok (.text d.text)
  | .array elements => .ok (.sequence elements)
  | .table entries => .ok (.map entries)

/-! ## Simple forms -/

/-- A text; `wanted` is how it is called in a message. -/
def textForm (stage : Stage) (wanted : String) (v : Toml.Value) : Except FormFault String := do
  match ← see stage v with
  | .text s => .ok s
  | other => .error (.wrongType other.found? wanted)

/-- A plain text. -/
def stringForm (stage : Stage) : Toml.Value → Except FormFault String := textForm stage "a string"

/-- A path. -/
def pathForm (stage : Stage) (v : Toml.Value) : Except FormFault Path := do
  return ⟨← textForm stage "path string" v⟩

/-- A flag. -/
def flagForm (stage : Stage) (v : Toml.Value) : Except FormFault Bool := do
  match ← see stage v with
  | .boolean b => .ok b
  | other => .error (.wrongType other.found? "a boolean")

/-- A whole number below a bound; `wanted` is how it is called in a message. -/
def numberForm (stage : Stage) (bound : Nat) (wanted : String) (v : Toml.Value) :
    Except FormFault Nat := do
  match ← see stage v with
  | .integer n => if 0 ≤ n && n < bound then .ok n.toNat else .error (.outOfRange n wanted)
  | other => .error (.wrongType other.found? wanted)

/-- A list of texts. -/
def stringsForm (stage : Stage) (v : Toml.Value) : Except FormFault (List String) := do
  match ← see stage v with
  | .sequence elements => elements.mapM (stringForm stage)
  | other => .error (.wrongType other.found? "a sequence")

/-- The entries of a map. -/
def mapForm (stage : Stage) (v : Toml.Value) : Except FormFault Toml.Table := do
  match ← see stage v with
  | .map entries => .ok entries
  | other => .error (.wrongType other.found? "a map")

/-! ## Choices -/

/-- One of several names. -/
def choose {α : Type} (choices : List (String × α)) (name : String) : Except FormFault α :=
  match choices.lookup name with
  | some a => .ok a
  | none => .error (.unknownChoice name (choices.map (·.1)))

/-- What stands beside a chosen name must be empty. -/
def emptyContent : Toml.Value → Except FormFault Unit
  | .array [] | .table [] => .ok ()
  | .array _ => .error (.fullContent "array")
  | .table _ => .error (.fullContent "table")
  | other => .error (.noTableContent other.kindName)

/-- A choice, as a text or as a table with the name as its only key. -/
def choiceForm {α : Type} (stage : Stage) (choices : List (String × α)) :
    Toml.Value → Except FormFault α
  | .text name => choose choices name
  | .table [] => .error .noElement
  | .table [(name, content)] => do
    let a ← choose choices name
    emptyContent content
    return a
  | .table _ => .error .manyElements
  | _ =>
    match stage with
    | .document => .error .noTextOrTable
    | .generic => .error (.wrongType .unitVariant "string only")

/-! ## Values that are only taken in -/

mutual
/-- Takes in a value that nothing asks for; only a number can be too wide.  With `generic`, the
value is taken in as a generic value, which holds signed 64-bit integers only. -/
def takeIn (generic : Bool) : Toml.Value → Except FormFault Unit
  | .integer n => do
    match ← seeInteger n with
    | .integer n =>
      if generic && Word.bound63 ≤ n then .error .unsignedTooWide else .ok ()
    | other =>
      if generic then .error (.wrongType other.found? "any valid TOML value") else .ok ()
  | .float f => if (floatText f).isSome then .ok () else .error .floatTooWide
  | .array elements => takeInAll generic elements
  | .table entries => takeInEntries generic entries
  | .text _ | .boolean _ | .datetime _ => .ok ()

/-- Takes in the elements of an array in order. -/
def takeInAll (generic : Bool) : List Toml.Value → Except FormFault Unit
  | [] => .ok ()
  | v :: rest => do
    takeIn generic v
    takeInAll generic rest

/-- Takes in the values of a table in order. -/
def takeInEntries (generic : Bool) : List (String × Toml.Value) → Except FormFault Unit
  | [] => .ok ()
  | (_, v) :: rest => do
    takeIn generic v
    takeInEntries generic rest
end

/-! ## Records -/

/-- The name of a record and its fields in order. -/
structure RecordForm where
  title : String
  fields : List String

/-- The fields that were given, in order, with what a missing one is reported as. -/
structure Given where
  entries : Toml.Table
  positional : Bool

/-- The fields of a record written as a table or as an array. -/
def RecordForm.given (form : RecordForm) (stage : Stage) (v : Toml.Value) :
    Except FormFault Given := do
  match ← see stage v with
  | .map entries => .ok ⟨entries, false⟩
  | .sequence elements => .ok ⟨form.fields.zip elements, true⟩
  | other => .error (.wrongType other.found? ("struct " ++ form.title))

/-- In a generic value, an array must not have more elements than the record has fields. -/
def RecordForm.checkLength (form : RecordForm) (stage : Stage) (v : Toml.Value) :
    Except FormFault Unit :=
  match stage, v with
  | .generic, .array elements =>
    if form.fields.length < elements.length then .error (.tooManyElements elements.length)
    else .ok ()
  | _, _ => .ok ()

/-- A field that may be left out. -/
def Given.optional {α : Type} (g : Given) (name : String) (form : Toml.Value → Except FormFault α) :
    Except FormFault (Option α) :=
  (g.entries.lookup name).mapM form

/-- A field that must be there. -/
def Given.required {α : Type} (g : Given) (record : RecordForm) (name : String)
    (form : Toml.Value → Except FormFault α) : Except FormFault α :=
  match g.entries.lookup name with
  | some v => form v
  | none =>
    if g.positional then
      .error (.tooFewElements (record.fields.idxOf name) record.title record.fields.length)
    else .error (.missingField name)

end DaemonKeeper.Config
