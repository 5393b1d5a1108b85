import DaemonKeeper.Command.Completion
import DaemonKeeper.Rehearsal.Rulebook
import Mathlib.Tactic.SplitIfs
set_option autoImplicit false

/-!
# The words of a command (SPEC §3.1)

However a command is put together, what it consists of is one list of words.  Arguments are added at
its end and wrappers in front, the last one outermost, and neither comes between the words that are
there.  The text of the command is these words with single spaces between them, and by this text
alone prepared answers are found and failures are told.
-/

namespace DaemonKeeper.Command

/-- A step in putting a command together. -/
inductive Step where
  | arg (a : String)
  | args (as : List String)
  | wrapped (wrapper : List String)
  deriving DecidableEq

namespace Step

/-- The command after the step. -/
def apply (c : Command) : Step → Command
  | arg a => c.arg a
  | args as => c.args as
  | wrapped wrapper => c.wrapped wrapper

/-- The words that the step puts in front. -/
def front : Step → List String
  | wrapped wrapper => wrapper
  | _ => []

/-- The words that the step adds at the end. -/
def back : Step → List String
  | arg a => [a]
  | args as => as
  | wrapped _ => []

end Step

/-- A program, and then step by step. -/
def build (program : String) (steps : List Step) : Command := steps.foldl Step.apply (new program)

/-! ## The words -/

variable {c d : Command}

/-- A command is its words. -/
theorem eq_of_argv_eq (h : c.argv = d.argv) : c = d := by
  obtain ⟨program, arguments⟩ := c
  obtain ⟨program', arguments'⟩ := d
  simpa [argv] using h

/-- A step leaves the words as they are and adds its own around them. -/
theorem argv_apply (c : Command) (s : Step) : (s.apply c).argv = s.front ++ c.argv ++ s.back := by
  cases s <;> simp [Step.apply, Step.front, Step.back]

/-- What comes later stands further out. -/
theorem argv_foldl (steps : List Step) (c : Command) :
    (steps.foldl Step.apply c).argv =
      (steps.map Step.front).reverse.flatten ++ c.argv ++ steps.flatMap Step.back := by
  induction steps generalizing c with
  | nil => simp
  | cons s steps ih =>
    rw [List.foldl_cons, ih, argv_apply]
    simp

theorem wrapped_wrapped (c : Command) (p q : List String) :
    (c.wrapped p).wrapped q = c.wrapped (q ++ p) := eq_of_argv_eq (by simp)

theorem wrapped_arg (c : Command) (p : List String) (a : String) :
    (c.arg a).wrapped p = (c.wrapped p).arg a := eq_of_argv_eq (by simp)

theorem wrapped_args (c : Command) (p as : List String) :
    (c.args as).wrapped p = (c.wrapped p).args as := eq_of_argv_eq (by simp)

/-- However much is told already, each argument adds a space and itself. -/
theorem foldl_told (as : List String) (told : String) :
    as.foldl (fun told a => told ++ " " ++ a) told = " ".intercalate (told :: as) := by
  induction as generalizing told with
  | nil => rfl
  | cons a rest ih =>
    rw [List.foldl_cons, ih, String.intercalate_cons_append, String.intercalate_cons_cons]

/-- So the text of a command is its words with single spaces between them. -/
theorem text_eq (c : Command) : c.text = " ".intercalate c.argv := foldl_told c.arguments c.program

/-- A command is told to fail by how its text begins; any other is answered as before. -/
theorem answer_fail (b : Rehearsal.Rulebook) (directory : Path) (opening : String) (code : Int)
    (c : Command) :
    ((b.fail opening code).answer directory c).1 =
      if Rehearsal.begins opening c.text then .error (.commandFailed c.text code [] [])
      else (b.answer directory c).1 := by
  unfold Rehearsal.Rulebook.answer
  rw [Rehearsal.Rulebook.fail, Rehearsal.Rulebook.add, Rehearsal.Rulebook.consult]
  split_ifs with hcovers hbegins hbegins
  · rfl
  · exact absurd hcovers hbegins
  · exact absurd hbegins hcovers
  · rfl

/-- The words of a command are those of its wrappers, the last one first, the program, and then all
arguments in order; wrapping twice is wrapping once in both, it does not matter whether a command is
wrapped before or after arguments are added, and an empty wrapper changes nothing.  Prepared answers
are found, and failures told, by the words with single spaces between them. -/
theorem words_grow_at_both_ends (program : String) (steps : List Step) :
    let words := (steps.map Step.front).reverse.flatten ++ program :: steps.flatMap Step.back
    let text := String.intercalate " " words
    (build program steps).argv = words ∧ (build program steps).text = text ∧
    (∀ (c : Command) (p q : List String), (c.wrapped p).wrapped q = c.wrapped (q ++ p)) ∧
    (∀ (c : Command) (p : List String) (a : String),
      (c.arg a).wrapped p = (c.wrapped p).arg a) ∧
    (∀ (c : Command) (p as : List String), (c.args as).wrapped p = (c.wrapped p).args as) ∧
    (∀ c : Command, c.wrapped [] = c) ∧
    (∀ (b : Rehearsal.Rulebook) (directory : Path) (opening : String) (code : Int),
      ((b.fail opening code).answer directory (build program steps)).1 =
        if Rehearsal.begins opening text then .error (.commandFailed text code [] [])
        else (b.answer directory (build program steps)).1) ∧
    ∀ done : Completion, done.outcome (build program steps) =
      if done.exit = .code 0 then .ok ⟨0, Text.splitLines done.stdout, Text.splitLines done.stderr⟩
      else .error (.commandFailed text done.exit.told (Text.splitLines done.stdout)
        (Text.splitLines done.stderr)) := by
  intro words text
  have hwords : (build program steps).argv = words := by
    rw [build, argv_foldl, argv_new, List.append_assoc, List.singleton_append]
  have htext : (build program steps).text = text := by rw [text_eq, hwords]
  refine ⟨hwords, htext, wrapped_wrapped, wrapped_arg, wrapped_args, fun c => rfl,
    fun b directory opening code => ?_, fun done => ?_⟩
  · rw [answer_fail, htext]
  · rw [Completion.outcome, htext]

example : (build "make" [.arg "-j", .wrapped ["sudo", "-n"], .wrapped [], .args ["4", "all"],
    .wrapped ["nice"]]).argv = ["nice", "sudo", "-n", "make", "-j", "4", "all"] := by decide

end DaemonKeeper.Command
