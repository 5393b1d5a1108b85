import DaemonKeeper.IoFault
import DaemonKeeper.Path
import DaemonKeeper.Text.Utf8
set_option autoImplicit false

/-!
# Rehearsal: files

A tree of named things below a root.  A thing is known by its place, the names that lead to it; a
path is walked from a place, through `..` and symbolic links, to a thing or to a vacancy where one
could be put.  The operator may read, write and search everything, but a file can be executed only
if one of its three execute permissions is set.
-/

namespace DaemonKeeper.Rehearsal

/-- The names that lead from the root to a thing. -/
abbrev Place := List String

/-- What can be at a place. -/
inductive Node where
  | file (mode : Nat) (bytes : List UInt8)
  | directory
  | link (target : String)
  /-- A program that comes with the machine. -/
  | tool (name : String)
  /-- Takes everything and holds nothing. -/
  | sink
  deriving DecidableEq, Repr

/-- One step of a path. -/
inductive Step where
  | name (n : String)
  | up
  /-- A dot, which leads nowhere. -/
  | dot
  /-- Between two separators, or after the last. -/
  | blank
  deriving DecidableEq, Repr

/-- Where a path leads. -/
inductive Spot where
  | found (place : Place) (node : Node)
  /-- Nothing has this name in this directory; a separator may follow the name. -/
  | vacant (directory : Place) (name : String) (separated : Bool)
  deriving DecidableEq, Repr

/-- Everything below the root. -/
structure Files where
  entries : List (Place × Node)
  deriving DecidableEq, Repr

/-- The step that a piece between separators stands for. -/
def Step.ofPiece (piece : List Char) : Step :=
  match piece with
  | [] => .blank
  | ['.'] => .dot
  | ['.', '.'] => .up
  | cs => .name (String.ofList cs)

/-- The steps of a path. -/
def stepsOf (text : String) : List Step := (Text.pieces '/' text.toList).map Step.ofPiece

/-- The path starts at the root. -/
def isAbsolute (text : String) : Bool := (Path.mk text).isAbsolute

namespace Files

/-- What is at a place. -/
def node? (f : Files) (place : Place) : Option Node :=
  if place = [] then some .directory else f.entries.lookup place

/-- There is a directory at a place. -/
def hasDirectory (f : Files) (place : Place) : Bool := f.node? place = some .directory

/-- Takes away what is at a place, with everything below it. -/
def erase (f : Files) (place : Place) : Files :=
  ⟨f.entries.filter fun e => !place.isPrefixOf e.1⟩

/-- Puts a thing at a place, instead of what is there. -/
def put (f : Files) (place : Place) (node : Node) : Files :=
  if f.entries.any (·.1 == place) then
    ⟨f.entries.map fun e => if e.1 = place then (place, node) else e⟩
  else ⟨(place, node) :: f.entries⟩

/-- Moves a thing and everything below it. -/
def relocate (f : Files) (source target : Place) : Files :=
  ⟨(f.erase target).entries.map fun e =>
    if source.isPrefixOf e.1 then (target ++ e.1.drop source.length, e.2) else e⟩

/-! ## Walking -/

/-- The longest name. -/
def nameLimit : Nat := 255

/-- Paths are shorter than this. -/
def pathLimit : Nat := 4096

/-- How many symbolic links are followed on the way. -/
def linkLimit : Nat := 40

/-- Walks the steps of a path.  A link that ends the path is followed only if asked for. -/
def walk (f : Files) (follow : Bool) : Nat → Place → List Step → Except IoFault Spot
  | _, place, [] =>
    match f.node? place with
    | some node => .ok (.found place node)
    | none => .error .notFound
  | links, place, step :: rest =>
    if !f.hasDirectory place then .error .notADirectory
    else
      match step with
      | .dot | .blank => walk f follow links place rest
      | .up => walk f follow links place.dropLast rest
      | .name n =>
        if nameLimit < n.utf8ByteSize then .error .nameTooLong
        else
          match f.node? (place ++ [n]) with
          | none =>
            if rest.all (· = .blank) then .ok (.vacant place n (!rest.isEmpty))
            else .error .notFound
          | some (.link target) =>
            if rest.isEmpty && !follow then .ok (.found (place ++ [n]) (.link target))
            else
              match links with
              | 0 => .error .tooManyLinks
              | links + 1 =>
                walk f follow links (if isAbsolute target then [] else place)
                  (stepsOf target ++ rest)
          | some _ => walk f follow links (place ++ [n]) rest
termination_by links _ steps => (links, steps.length)

/-- Walks steps that start at the root or at a place. -/
def walkFrom (f : Files) (follow : Bool) (here : Place) (absolute : Bool) (steps : List Step) :
    Except IoFault Spot :=
  f.walk follow linkLimit (if absolute then [] else here) steps

/-- Walks a path from a place. -/
def locate (f : Files) (follow : Bool) (here : Place) (text : String) : Except IoFault Spot :=
  if '\x00' ∈ text.toList then .error .nulInPath
  else if text.isEmpty then .error .notFound
  else if pathLimit ≤ text.utf8ByteSize then .error .nameTooLong
  else f.walkFrom follow here (isAbsolute text) (stepsOf text)

/-- What a path leads to, through all links. -/
def find (f : Files) (here : Place) (text : String) : Except IoFault (Place × Node) :=
  match f.locate true here text with
  | .ok (.found place node) => .ok (place, node)
  | .ok (.vacant ..) => .error .notFound
  | .error fault => .error fault

/-! ## Questions -/

/-- A path leads to something. -/
def exists? (f : Files) (here : Place) (text : String) : Bool := (f.find here text).isOk

/-- A path leads to a directory. -/
def isDirectory (f : Files) (here : Place) (text : String) : Bool :=
  match f.find here text with
  | .ok (_, .directory) => true
  | _ => false

/-- Some execute permission is set. -/
def isExecutableMode (mode : Nat) : Bool := mode &&& 0o111 != 0

/-- A path leads to a regular file that may be executed. -/
def isExecutable (f : Files) (here : Place) (text : String) : Bool :=
  match f.find here text with
  | .ok (_, .file mode _) => isExecutableMode mode
  | .ok (_, .tool _) => true
  | _ => false

/-- The names in a directory, in order. -/
def names (f : Files) (place : Place) : List String :=
  (f.entries.filterMap fun e =>
    if e.1.dropLast = place then e.1.getLast? else none).mergeSort (· ≤ ·)

/-- Places in the order in which a directory is followed at once by what it holds. -/
def placeLe : Place → Place → Bool
  | [], _ => true
  | _ :: _, [] => false
  | a :: as, b :: bs => if a = b then placeLe as bs else a < b

/-- Everything below a place, with a separator after the name of a directory. -/
def listing (f : Files) (place : Place) : List String :=
  let below := f.entries.filterMap fun e =>
    if place.isPrefixOf e.1 && e.1 != place then some (e.1.drop place.length, e.2) else none
  (below.mergeSort fun a b => placeLe a.1 b.1).map fun e =>
    String.intercalate "/" e.1 ++ if e.2 = .directory then "/" else ""

/-- Everything below the directory that a path leads to. -/
def listingAt (f : Files) (here : Place) (text : String) : List String :=
  match f.find here text with
  | .ok (place, .directory) => f.listing place
  | _ => []

/-! ## Reading and writing -/

/-- The bytes of a file. -/
def read (f : Files) (here : Place) (text : String) : Except IoFault (List UInt8) := do
  match ← f.find here text with
  | (_, .file _ bytes) => return bytes
  | (_, .directory) => .error .isADirectory
  | _ => return []

/-- The place where a path that is to be written leads: a file that is there, or a vacancy. -/
def writable (f : Files) (here : Place) (text : String) : Except IoFault (Place × Option Node) :=
  let endsOpen := text.endsWith "/"
  let stem := if endsOpen then String.ofList ((text.toList.reverse.dropWhile (· = '/')).reverse)
    else text
  match f.locate true here (if stem.isEmpty then text else stem) with
  | .error fault => .error fault
  | .ok (.found _ .directory) => .error .isADirectory
  | .ok (.found place node) => if endsOpen then .error .isADirectory else .ok (place, some node)
  | .ok (.vacant directory name _) =>
    if endsOpen then .error .isADirectory else .ok (directory ++ [name], none)

/-- The permissions of a file that is new. -/
def newMode : Nat := 0o644

/-- Puts bytes into a file at a place, after what it holds or instead of it. -/
def fill (f : Files) (place : Place) (append : Bool) (bytes : List UInt8) : Files :=
  match f.node? place with
  | some (.file mode old) => f.put place (.file mode (if append then old ++ bytes else bytes))
  | some _ => f
  | none => f.put place (.file newMode bytes)

/-- Writes a file, replacing what is there. -/
def write (f : Files) (here : Place) (text : String) (bytes : List UInt8) :
    Except IoFault Files := do
  let (place, _) ← f.writable here text
  return f.fill place false bytes

/-- Sets the permissions of a file. -/
def setMode (f : Files) (here : Place) (text : String) (mode : Nat) : Except IoFault Files := do
  match ← f.find here text with
  | (place, .file _ bytes) => return f.put place (.file mode bytes)
  | _ => return f

/-- Puts a symbolic link where nothing is. -/
def symlink (f : Files) (here : Place) (text target : String) : Except IoFault Files := do
  match ← f.locate false here text with
  | .found .. => .error .alreadyExists
  | .vacant directory name separated =>
    if separated then .error .notFound else return f.put (directory ++ [name]) (.link target)

/-- Takes away what a path leads to, without following a link at its end. -/
def remove (f : Files) (here : Place) (text : String) : Except IoFault Files := do
  match ← f.locate false here text with
  | .found place _ => return f.erase place
  | .vacant .. => .error .notFound

/-! ## Directories -/

/-- Creates the directory that steps lead to; what they pass must be there.  Separators behind the
last name are of no account. -/
def makeDirectory (f : Files) (here : Place) (absolute : Bool) (steps : List Step) :
    Except IoFault Files := do
  let steps := (steps.reverse.dropWhile (· = .blank)).reverse
  match ← f.walkFrom false here absolute steps with
  | .found .. => .error .alreadyExists
  | .vacant directory name _ => return f.put (directory ++ [name]) .directory

/-- The steps lead to a directory. -/
def leadsToDirectory (f : Files) (here : Place) (absolute : Bool) (steps : List Step) : Bool :=
  match f.walkFrom true here absolute steps with
  | .ok (.found _ .directory) => true
  | _ => false

/-- Creates a directory unless there is one. -/
def ensureDirectory (f : Files) (here : Place) (absolute : Bool) (steps : List Step) :
    Except IoFault Files :=
  match f.makeDirectory here absolute steps with
  | .ok f => .ok f
  | .error fault => if f.leadsToDirectory here absolute steps then .ok f else .error fault

/-- The files after a change, or as they are. -/
def changed (f : Files) : Except IoFault Files → Except IoFault Unit × Files
  | .ok g => (.ok (), g)
  | .error fault => (.error fault, f)

/-- Creates a directory with its parents, given its steps from the last to the first.  The parents
stay when the directory itself cannot be created. -/
def ensureParents (f : Files) (here : Place) (absolute : Bool) :
    List Step → Except IoFault Unit × Files
  | [] => (.ok (), f)
  | step :: before =>
    match f.ensureDirectory here absolute (before.reverse ++ [step]) with
    | .error .notFound =>
      match ensureParents f here absolute before with
      | (.ok (), g) => g.changed (g.ensureDirectory here absolute (before.reverse ++ [step]))
      | failed => failed
    | outcome => f.changed outcome

/-- The step leads somewhere. -/
def isMove : Step → Bool
  | .name _ | .up => true
  | .dot | .blank => false

/-- Creates the directory that a path leads to, with its parents, unless there is one. -/
def createDirectory (f : Files) (here : Place) (text : String) : Except IoFault Unit × Files :=
  let absolute := isAbsolute text
  let steps := stepsOf text
  if '\x00' ∈ text.toList then (.error .nulInPath, f)
  else if text.isEmpty then (.ok (), f)
  else if pathLimit ≤ text.utf8ByteSize then (.error .nameTooLong, f)
  else
    match f.ensureDirectory here absolute steps with
    | .error .notFound =>
      match f.ensureParents here absolute ((steps.filter isMove).dropLast).reverse with
      | (.ok (), g) => g.changed (g.ensureDirectory here absolute steps)
      | failed => failed
    | outcome => f.changed outcome

end Files

end DaemonKeeper.Rehearsal
