set_option autoImplicit false

/-!
# Rehearsal: shell scripts

The programs that are started in a rehearsal are shell scripts.  A script is a tree of commands; the
words of a command are made of parts, some of which stand for something else.
-/

namespace DaemonKeeper.Rehearsal.Shell

/-- What a redirection does. -/
inductive Direction where
  | input
  | output
  | append
  /-- To where another descriptor leads. -/
  | duplicate
  deriving DecidableEq, Repr

/-- What happens where a parameter is not set. -/
inductive Fallback where
  /-- The word is used instead. -/
  | use
  /-- The word is used instead, and becomes the value. -/
  | assign
  /-- The script ends with the word as a complaint. -/
  | complain
  /-- The word is used where the parameter is set, and nothing otherwise. -/
  | alternative
  deriving DecidableEq, Repr

mutual

/-- A part of a word. -/
inductive Part where
  | text (quoted : Bool) (s : String)
  | parameter (quoted : Bool) (name : String) (change : Change)
  /-- The output of a script. -/
  | output (quoted : Bool) (script : Script)
  /-- The value of an arithmetic expression. -/
  | arithmetic (quoted : Bool) (expression : List Part)

/-- What is made of the value of a parameter. -/
inductive Change where
  | same
  | length
  | fallback (alsoEmpty : Bool) (kind : Fallback) (word : List Part)
  /-- The shortest or longest match is cut off at the front or at the end. -/
  | cut (front longest : Bool) (pattern : List Part)

/-- A redirection of a descriptor. -/
inductive Redirection where
  | mk (descriptor : Nat) (direction : Direction) (target : List Part)

/-- A script, or a command of it. -/
inductive Script where
  | nothing
  | simple (line : Nat) (assignments : List (String × List Part)) (words : List (List Part))
      (redirections : List Redirection)
  | sequence (first second : Script)
  /-- The second only if the first succeeds. -/
  | both (first second : Script)
  /-- The second only if the first fails. -/
  | either (first second : Script)
  | negation (script : Script)
  | pipe (first second : Script)
  | background (script : Script)
  | subshell (script : Script)
  | redirected (script : Script) (redirections : List Redirection)
  | choice (condition yes no : Script)
  /-- Repeats the body as long as the condition succeeds, or until it does. -/
  | loop (until_ : Bool) (condition body : Script)
  | each (name : String) (words : Option (List (List Part))) (body : Script)
  | cases (subject : List Part) (clauses : List (List (List Part) × Script))
  | define (name : String) (body : Script)

end

/-- A word. -/
abbrev Word := List Part

instance : Inhabited Script := ⟨.nothing⟩

end DaemonKeeper.Rehearsal.Shell
