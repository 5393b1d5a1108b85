import DaemonKeeper.Rehearsal.Program
import DaemonKeeper.Rehearsal.Shell.Arithmetic
import DaemonKeeper.Rehearsal.Shell.Pattern
set_option autoImplicit false

/-!
# Rehearsal: expansion of words

Parameters, outputs and expressions are replaced by their texts.  What was not quoted is split into
fields at white space, and fields that are patterns are replaced by the names that fit them.
-/

namespace DaemonKeeper.Rehearsal.Shell

/-- A piece of an expanded word. -/
inductive Piece where
  | glyphs (gs : List Glyph)
  | splittable (s : String)
  /-- Here one field ends and another begins. -/
  | boundary
  deriving DecidableEq, Repr

namespace Piece

/-- The piece for a text. -/
def ofText (quoted : Bool) (s : String) : Piece :=
  if quoted then .glyphs (Glyph.ofString true s) else .splittable s

/-- The characters of a piece that is not split. -/
def unsplit : Piece → List Glyph
  | .glyphs gs => gs
  | .splittable s => Glyph.ofString false s
  | .boundary => [⟨' ', true⟩]

end Piece

/-! ## Fields -/

/-- Fields that are complete, the latest first, and one that is not. -/
structure Fields where
  complete : List (List Glyph) := []
  current : Option (List Glyph) := none

namespace Fields

/-- Completes the current field. -/
def close (f : Fields) : Fields :=
  match f.current with
  | some gs => { complete := gs :: f.complete }
  | none => f

/-- Adds characters to the current field. -/
def extend (f : Fields) (gs : List Glyph) : Fields :=
  { f with current := some (f.current.getD [] ++ gs) }

/-- Adds a character that may separate fields. -/
def addChar (separators : List Char) (f : Fields) (c : Char) : Fields :=
  if c ∈ separators then
    if c = ' ' || c = '\t' || c = '\n' then f.close else (f.extend []).close
  else f.extend [⟨c, false⟩]

/-- Adds a piece. -/
def addPiece (separators : List Char) (f : Fields) : Piece → Fields
  | .glyphs gs => f.extend gs
  | .splittable s => s.toList.foldl (addChar separators) f
  | .boundary => f.close

/-- The fields of pieces. -/
def ofPieces (separators : List Char) (pieces : List Piece) : List (List Glyph) :=
  (pieces.foldl (addPiece separators) {}).close.complete.reverse

end Fields

/-! ## Names that fit a pattern -/

/-- The part of a field before its last separator, that separator included, and the part after. -/
def splitLast (gs : List Glyph) : List Glyph × List Glyph :=
  let after := (gs.reverse.takeWhile (·.char != '/')).reverse
  (gs.take (gs.length - after.length), after)

/-- The names that a field stands for. -/
def namesOf (files : Files) (here : Place) (gs : List Glyph) : List String :=
  if Glyph.isPattern gs then
    let (directory, pattern) := splitLast gs
    let place := match files.find here (if directory.isEmpty then "." else Glyph.text directory) with
      | .ok (place, .directory) => some place
      | _ => none
    let names := (place.map files.names).getD []
    let hidden := pattern.head?.any fun g => g.char = '.'
    let fitting := names.filter fun n =>
      fits pattern n.toList && (hidden || n.toList.head? != some '.')
    if fitting.isEmpty then [Glyph.text gs]
    else fitting.map fun n => Glyph.text directory ++ n
  else [Glyph.text gs]

/-! ## Parameters -/

/-- The characters that separate fields. -/
def separators : Running (List Char) := do
  return ((← Running.lookup "IFS").map String.toList).getD [' ', '\t', '\n']

/-- The value of a parameter. -/
def parameter (name : String) : Running (Option String) := do
  let s ← get
  match name with
  | "#" => return some (toString s.arguments.length)
  | "?" => return some (toString s.status)
  | "$" => return some (toString s.self)
  | "!" => return s.lastBackground.map fun pid => toString pid
  | "-" => return some ""
  | "0" => return some s.name
  | "@" | "*" =>
    return if s.arguments.isEmpty then none else some (String.intercalate " " s.arguments)
  | _ =>
    match name.toNat? with
    | some n => return s.arguments[n - 1]?
    | none => return s.bindings.lookup name

/-- Ends the script with a complaint. -/
def abort {α : Type} (message : String) : Running α := do
  let s ← get
  let _ ← Running.complain (s.name ++ ": " ++ toString s.line ++ ": " ++ message)
  throw (.exit 2)

/-- The pieces of all arguments. -/
def argumentPieces (quoted : Bool) : Running (List Piece) := do
  return ((← get).arguments.map (Piece.ofText quoted)).intersperse .boundary

/-- The number that a variable holds. -/
def numberOf (bindings : List (String × String)) (name : String) : Int :=
  ((bindings.lookup name).bind String.toInt?).getD 0

/-! ## Words -/

mutual

/-- The pieces of parts; `capture` gives the output of a script. -/
def pieces (capture : Script → Running String) (bound : Nat) (ps : List Part) :
    Running (List Piece) := do
  match bound with
  | 0 => return []
  | bound + 1 =>
    match ps with
    | [] => return []
    | p :: rest =>
      let first ← piece capture bound p
      return first ++ (← pieces capture bound rest)

/-- The pieces of one part. -/
def piece (capture : Script → Running String) (bound : Nat) (p : Part) : Running (List Piece) := do
  match bound with
  | 0 => return []
  | bound + 1 =>
    match p with
    | .text quoted s => return [.glyphs (Glyph.ofString quoted s)]
    | .output quoted script => return [.ofText quoted (← capture script)]
    | .arithmetic quoted expression =>
      let text ← unsplitText capture bound expression
      let bindings := (← get).bindings
      match Arithmetic.evaluate (numberOf bindings) text with
      | some n => return [.ofText quoted (toString n)]
      | none => abort ("arithmetic expression: expecting primary: \"" ++ text ++ "\"")
    | .parameter quoted name change =>
      match change with
      | .same =>
        if name = "@" || (name = "*" && !quoted) then argumentPieces quoted
        else return [.ofText quoted ((← parameter name).getD "")]
      | .length => return [.ofText quoted (toString ((← parameter name).getD "").length)]
      | .fallback alsoEmpty kind word =>
        let value ← parameter name
        let missing := value.isNone || (alsoEmpty && value = some "")
        match kind with
        | .use =>
          if missing then pieces capture bound word
          else return [.ofText quoted (value.getD "")]
        | .assign =>
          if missing then
            let text ← unsplitText capture bound word
            Running.assign name text
            return [.ofText quoted text]
          else return [.ofText quoted (value.getD "")]
        | .complain =>
          if missing then
            let text ← unsplitText capture bound word
            abort (name ++ ": " ++ (if text.isEmpty then "parameter not set or null" else text))
          else return [.ofText quoted (value.getD "")]
        | .alternative => if missing then return [] else pieces capture bound word
      | .cut front longest word =>
        let pattern := (← pieces capture bound word).flatMap Piece.unsplit
        let value := ((← parameter name).getD "").toList
        let kept := if front then cutFront longest pattern value else cutEnd longest pattern value
        return [.ofText quoted (String.ofList kept)]

/-- The text of parts without any splitting. -/
def unsplitText (capture : Script → Running String) (bound : Nat) (ps : List Part) :
    Running String := do
  match bound with
  | 0 => return ""
  | bound + 1 => return Glyph.text ((← pieces capture bound ps).flatMap Piece.unsplit)

end

/-- How deep words are followed into each other. -/
def depthLimit : Nat := 1000000

/-- The text of a word without any splitting. -/
def textOf (capture : Script → Running String) (w : Word) : Running String :=
  unsplitText capture depthLimit w

/-- The characters of a word that is used as a pattern. -/
def patternOf (capture : Script → Running String) (w : Word) : Running (List Glyph) := do
  return (← pieces capture depthLimit w).flatMap Piece.unsplit

/-- The fields of words. -/
def fieldsOf (capture : Script → Running String) : List Word → Running (List String)
  | [] => return []
  | w :: rest => do
    let fields := Fields.ofPieces (← separators) (← pieces capture depthLimit w)
    let s ← get
    let names ← if fields.any Glyph.isPattern then do
        let files ← Running.files
        pure (fields.flatMap (namesOf files s.directory))
      else pure (fields.map Glyph.text)
    return names ++ (← fieldsOf capture rest)

end DaemonKeeper.Rehearsal.Shell
