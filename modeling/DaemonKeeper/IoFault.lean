set_option autoImplicit false

/-!
# Faults of the machine

What the machine answers when it cannot do what it was asked to.
-/

namespace DaemonKeeper

/-- Why the machine refused. -/
inductive IoFault where
  | notPermitted
  | notFound
  | argumentsTooLong
  | execFormat
  | permissionDenied
  | alreadyExists
  | notADirectory
  | isADirectory
  | nameTooLong
  | notImplemented
  | notEmpty
  | tooManyLinks
  | noSuchProcess
  /-- The bytes of a file are not UTF-8. -/
  | notUtf8
  /-- A program or an argument holds a NUL character. -/
  | nulInArgument
  /-- A path holds a NUL character. -/
  | nulInPath
  deriving DecidableEq, Repr

namespace IoFault

/-- What a refusal is called. -/
def wording : IoFault → String
  | .notPermitted => "Operation not permitted"
  | .notFound => "No such file or directory"
  | .noSuchProcess => "No such process"
  | .argumentsTooLong => "Argument list too long"
  | .execFormat => "Exec format error"
  | .permissionDenied => "Permission denied"
  | .alreadyExists => "File exists"
  | .notADirectory => "Not a directory"
  | .isADirectory => "Is a directory"
  | .nameTooLong => "File name too long"
  | .notImplemented => "Function not implemented"
  | .notEmpty => "Directory not empty"
  | .tooManyLinks => "Too many levels of symbolic links"
  | .notUtf8 => "stream did not contain valid UTF-8"
  | .nulInArgument => "nul byte found in provided data"
  | .nulInPath => "file name contained an unexpected NUL byte"

/-- The number that the system gives a refusal; the last three never reach the system. -/
def number? : IoFault → Option Nat
  | .notPermitted => some 1
  | .notFound => some 2
  | .noSuchProcess => some 3
  | .argumentsTooLong => some 7
  | .execFormat => some 8
  | .permissionDenied => some 13
  | .alreadyExists => some 17
  | .notADirectory => some 20
  | .isADirectory => some 21
  | .nameTooLong => some 36
  | .notImplemented => some 38
  | .notEmpty => some 39
  | .tooManyLinks => some 40
  | .notUtf8 | .nulInArgument | .nulInPath => none

/-- Every refusal. -/
def all : List IoFault :=
  [.notPermitted, .notFound, .argumentsTooLong, .execFormat, .permissionDenied, .alreadyExists,
    .notADirectory, .isADirectory, .nameTooLong, .notImplemented, .notEmpty, .tooManyLinks,
    .noSuchProcess, .notUtf8, .nulInArgument, .nulInPath]

/-- The refusal that has a number. -/
def ofNumber? (n : Nat) : Option IoFault := all.find? fun f => f.number? = some n

theorem ofNumber?_number (f : IoFault) (n : Nat) (h : f.number? = some n) :
    ofNumber? n = some f := by
  cases f <;> simp only [number?, Option.some.injEq, reduceCtorEq] at h <;> subst h <;> rfl

/-- How a refusal is worded, with its number. -/
def message (f : IoFault) : String :=
  match f.number? with
  | some n => f.wording ++ " (os error " ++ toString n ++ ")"
  | none => f.wording

/-- The machine has what was asked for and keeps it to others. -/
def isDenial : IoFault → Bool
  | .permissionDenied | .notPermitted => true
  | _ => false

end IoFault

end DaemonKeeper
