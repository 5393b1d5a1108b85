set_option autoImplicit false

/-!
# Rehearsal: patterns

A star stands for any text, a question mark for any character, and brackets for one of several
characters.  What was quoted stands for itself.
-/

namespace DaemonKeeper.Rehearsal.Shell

/-- A character that knows whether it was quoted. -/
structure Glyph where
  char : Char
  quoted : Bool
  deriving DecidableEq, Repr

namespace Glyph

/-- The characters of a text. -/
def ofString (quoted : Bool) (s : String) : List Glyph := s.toList.map (⟨·, quoted⟩)

/-- The text of characters. -/
def text (gs : List Glyph) : String := String.ofList (gs.map (·.char))

/-- A character that was not quoted. -/
def isPlain (c : Char) (g : Glyph) : Bool := g.char = c && !g.quoted

/-- The characters hold something that stands for more than itself. -/
def isPattern (gs : List Glyph) : Bool :=
  gs.any fun g => g.isPlain '*' || g.isPlain '?' || g.isPlain '['

end Glyph

/-- A character is among those between brackets, some of which are given by their ends. -/
def inBrackets (c : Char) : List Char → Bool
  | first :: '-' :: last :: rest => (first ≤ c && c ≤ last) || inBrackets c rest
  | d :: rest => c = d || inBrackets c rest
  | [] => false

/-- What is between brackets, the first of which was passed, and what follows them. -/
def bracketed? (gs : List Glyph) : Option (Bool × List Char × List Glyph) :=
  let negated := (gs.head?.map fun g => g.char = '!' || g.char = '^').getD false
  let body := if negated then gs.drop 1 else gs
  let members := body.takeWhile fun g => !g.isPlain ']'
  match body.drop members.length with
  | _ :: rest => some (negated, members.map (·.char), rest)
  | [] => none

theorem bracketed?_length {gs rest : List Glyph} {negated : Bool} {members : List Char}
    (h : bracketed? gs = some (negated, members, rest)) : rest.length ≤ gs.length := by
  unfold bracketed? at h
  dsimp only at h
  split at h
  · rename_i g tail hd
    cases h
    have hsize := congrArg List.length hd
    rw [List.length_drop, List.length_cons] at hsize
    split at hsize
    · rw [List.length_drop] at hsize; omega
    · omega
  · cases h

/-- The whole text fits the pattern. -/
def fits : List Glyph → List Char → Bool
  | [], cs => cs.isEmpty
  | g :: gs, cs =>
    if g.isPlain '*' then
      fits gs cs || match cs with
        | [] => false
        | _ :: rest => fits (g :: gs) rest
    else
      match cs with
      | [] => false
      | c :: rest =>
        if g.isPlain '?' then fits gs rest
        else if g.isPlain '[' then
          match _h : bracketed? gs with
          | some (negated, members, after) =>
            (inBrackets c members != negated) && fits after rest
          | none => c = g.char && fits gs rest
        else c = g.char && fits gs rest
termination_by gs cs => gs.length + cs.length
decreasing_by
  all_goals simp only [List.length_cons]
  all_goals try omega
  have := bracketed?_length _h
  omega

/-- The text without a front part that fits the pattern, the shortest or the longest. -/
def cutFront (longest : Bool) (pattern : List Glyph) (cs : List Char) : List Char :=
  let sizes := List.range (cs.length + 1)
  let sizes := if longest then sizes.reverse else sizes
  match sizes.find? fun n => fits pattern (cs.take n) with
  | some n => cs.drop n
  | none => cs

/-- The text without an end part that fits the pattern, the shortest or the longest. -/
def cutEnd (longest : Bool) (pattern : List Glyph) (cs : List Char) : List Char :=
  let sizes := List.range (cs.length + 1)
  let sizes := if longest then sizes else sizes.reverse
  match sizes.find? fun n => fits pattern (cs.drop n) with
  | some n => cs.take n
  | none => cs

end DaemonKeeper.Rehearsal.Shell
