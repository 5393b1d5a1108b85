import DaemonKeeper.Rehearsal.Rulebook
import Mathlib.Data.List.Induction
set_option autoImplicit false

/-!
# Rules in turn (SPEC §4.6)

A rulebook uses up its replies as it gives them.  What it says can be told without that from what
was done with it before: the latest rule whose opening begins the command speaks, with the reply
whose number is that of its turn, and with its last one when its turns go on.  Neither other
commands nor later rules make a difference to whose turn it is.
-/

namespace DaemonKeeper.Rehearsal

/-- The rule at this position is the latest that covers the text.  Rules are in the order in which
they were added. -/
def Speaks (rules : List Rule) (text : String) (i : Nat) : Prop :=
  rules[i]?.any (·.covers text) = true ∧ ∀ later ∈ rules.drop (i + 1), later.covers text = false

instance (rules : List Rule) (text : String) (i : Nat) : Decidable (Speaks rules text i) :=
  inferInstanceAs (Decidable (_ ∧ _))

namespace Speaks

variable {rules others : List Rule} {text : String} {i j : Nat} {r : Rule}

theorem iff_getElem? : Speaks rules text i ↔
    (∃ r, rules[i]? = some r ∧ r.covers text = true) ∧
      ∀ j r, i < j → rules[j]? = some r → r.covers text = false := by
  unfold Speaks
  rw [Option.any_eq_true]
  refine and_congr_right fun _ => ⟨fun h j r hj hr => ?_, fun h later hlater => ?_⟩
  · refine h r (List.mem_of_getElem? (i := j - (i + 1)) ?_)
    rw [List.getElem?_drop, ← hr]
    congr 1
    omega
  · obtain ⟨k, hk⟩ := List.getElem?_of_mem hlater
    rw [List.getElem?_drop] at hk
    exact h _ later (by omega) hk

/-- Only one rule speaks. -/
theorem unique (h : Speaks rules text i) (h' : Speaks rules text j) : i = j := by
  rw [iff_getElem?] at h h'
  obtain ⟨⟨r, hr, hcovers⟩, hlater⟩ := h
  obtain ⟨⟨r', hr', hcovers'⟩, hlater'⟩ := h'
  rcases Nat.lt_trichotomy i j with hlt | rfl | hlt
  · rw [hlater j r' hlt hr'] at hcovers'
    cases hcovers'
  · rfl
  · rw [hlater' i r hlt hr] at hcovers
    cases hcovers

/-- If no rule speaks, no rule covers the text. -/
theorem not_covers_of_forall_not (h : ∀ i, ¬ Speaks rules text i) :
    ∀ r ∈ rules, r.covers text = false := by
  induction rules using List.reverseRecOn with
  | nil => nofun
  | append_singleton rules r ih =>
    have hlast : r.covers text = false := by
      by_contra hcovers
      refine h rules.length (iff_getElem?.mpr ⟨⟨r, by simp, by simpa using hcovers⟩, ?_⟩)
      intro j r' hj hr'
      rw [List.getElem?_eq_none (by simp; omega)] at hr'
      cases hr'
    refine List.forall_mem_append.mpr ⟨ih fun i hi => h i ?_, List.forall_mem_singleton.mpr hlast⟩
    -- What speaks without the last rule would speak with it too.
    obtain ⟨⟨r', hr', -⟩, -⟩ := iff_getElem?.mp hi
    have hi' : i < rules.length := (List.getElem?_eq_some_iff.mp hr').1
    refine ⟨by rw [List.getElem?_append_left hi']; exact hi.1, ?_⟩
    rw [List.drop_append_of_le_length hi']
    exact List.forall_mem_append.mpr ⟨hi.2, List.forall_mem_singleton.mpr hlast⟩

/-- Which rule speaks depends only on which rules cover the text. -/
theorem congr (h : others.map (Rule.covers · text) = rules.map (Rule.covers · text)) :
    Speaks others text i ↔ Speaks rules text i := by
  have hiff : ∀ rules : List Rule, Speaks rules text i ↔
      (rules.map (Rule.covers · text))[i]?.any id = true ∧
        ∀ covers ∈ (rules.map (Rule.covers · text)).drop (i + 1), covers = false := by
    intro rules
    rw [Speaks, List.getElem?_map, Option.any_map, ← List.map_drop]
    refine and_congr_right fun _ => ?_
    rw [List.forall_mem_map]
  rw [hiff, hiff, h]

end Speaks

/-! ## Replies that are used up -/

namespace Rule

/-- The rule after it has spoken so many times. -/
def spent (r : Rule) (turns : Nat) : Rule :=
  { r with answers := r.answers.drop (min turns (r.answers.length - 1)) }

@[simp] theorem covers_spent (r : Rule) (turns : Nat) (text : String) :
    (r.spent turns).covers text = r.covers text := rfl

@[simp] theorem spent_zero (r : Rule) : r.spent 0 = r := by
  simp [spent]

theorem advance_eq_spent (r : Rule) : r.advance = r.spent 1 := by
  obtain ⟨opening, answers⟩ := r
  rcases answers with _ | ⟨a, _ | ⟨b, rest⟩⟩ <;> simp [advance, spent]

/-- Speaking once more uses up one more reply, down to the last one. -/
theorem advance_spent (r : Rule) (turns : Nat) : (r.spent turns).advance = r.spent (turns + 1) := by
  rw [advance_eq_spent]
  simp only [spent, List.drop_drop, List.length_drop]
  congr 2
  omega

/-- The next reply is the one whose number is that of the turn, or the last one. -/
theorem head?_answers_spent (r : Rule) (turns : Nat) :
    (r.spent turns).answers.head? = r.answers[min (turns + 1) r.answers.length - 1]? := by
  rw [spent, List.head?_drop]
  congr 1
  omega

end Rule

/-! ## Consulting the rules -/

namespace Rulebook

variable {rules : List Rule} {text : String} {i : Nat} {r : Rule}

/-- Rules that do not cover the text are passed over. -/
theorem consult_append {newer older : List Rule} (h : ∀ r ∈ newer, r.covers text = false) :
    consult text (newer ++ older) =
      ((consult text older).1, newer ++ (consult text older).2) := by
  induction newer with
  | nil => rfl
  | cons r rest ih =>
    obtain ⟨hr, hrest⟩ := List.forall_mem_cons.mp h
    simp only [List.cons_append, consult, hr, Bool.false_eq_true, if_false, ih hrest]

/-- The rule that speaks gives its next reply and uses it up; the other rules stay as they are. -/
theorem consult_of_speaks (h : Speaks rules text i) (hr : rules[i]? = some r) :
    consult text rules.reverse = (r.answers.head?, (rules.set i r.advance).reverse) := by
  obtain ⟨hcovers, hlater⟩ := h
  rw [hr, Option.any_some] at hcovers
  obtain ⟨hi, rfl⟩ := List.getElem?_eq_some_iff.mp hr
  have hsplit : rules.reverse =
      (rules.drop (i + 1)).reverse ++ rules[i] :: (rules.take i).reverse := by
    conv_lhs => rw [← List.take_append_drop i rules, List.drop_eq_getElem_cons hi]
    simp
  have hset : (rules.set i rules[i].advance).reverse =
      (rules.drop (i + 1)).reverse ++ rules[i].advance :: (rules.take i).reverse := by
    rw [List.set_eq_take_append_cons_drop, if_pos hi]
    simp
  rw [hsplit, hset, consult_append fun r hmem => hlater r (List.mem_reverse.mp hmem)]
  simp only [consult, hcovers, if_true]

/-- If no rule speaks, there is no answer, and all rules stay as they are. -/
theorem consult_of_forall_not (h : ∀ i, ¬ Speaks rules text i) :
    consult text rules.reverse = (none, rules.reverse) := by
  have hnone : ∀ r ∈ rules.reverse, r.covers text = false := fun r hr =>
    Speaks.not_covers_of_forall_not h r (List.mem_reverse.mp hr)
  have hconsult : consult text (rules.reverse ++ []) = (none, rules.reverse ++ []) :=
    consult_append hnone
  rwa [List.append_nil] at hconsult

/-! ## What was done before -/

/-- What is done with a rulebook: a rule is added, or a command is asked for. -/
inductive Event where
  | respond (opening : String) (lines : List String)
  | respondInTurn (opening : String) (outputs : List (List String))
  | fail (opening : String) (code : Int)
  | command (directory : Path) (command : Command)

/-- The rulebook after one more event. -/
def Event.apply (b : Rulebook) : Event → Rulebook
  | respond opening lines => b.respond opening lines
  | respondInTurn opening outputs => b.respondInTurn opening outputs
  | fail opening code => b.fail opening code
  | command directory c => (b.answer directory c).2

/-- The rule that is added. -/
def Event.rule? : Event → Option Rule
  | respond opening lines => some ⟨opening, [.output (.ofLines lines)]⟩
  | respondInTurn opening outputs =>
    some ⟨opening, outputs.map fun lines => .output (.ofLines lines)⟩
  | fail opening code => some ⟨opening, [.failure code]⟩
  | command _ _ => none

/-- The command that is asked for, with its directory. -/
def Event.record? : Event → Option Record
  | command directory c => some ⟨directory, c.text⟩
  | _ => none

/-- A rulebook with which all this was done, in order. -/
def after (history : List Event) : Rulebook := history.foldl Event.apply {}

/-- The rules that were added, in order, with all their replies. -/
def added (history : List Event) : List Rule := history.filterMap Event.rule?

/-- How many commands have been answered by the rule that was added at this position: those at
which it spoke, among the rules that there were when the command was asked for. -/
def turns (history : List Event) (i : Nat) : Nat :=
  (List.range history.length).countP fun k =>
    (history[k]?.bind Event.record?).any fun asked =>
      decide (Speaks (added (history.take k)) asked.text i)

theorem after_concat (history : List Event) (e : Event) :
    after (history ++ [e]) = e.apply (after history) := by
  rw [after, List.foldl_append]
  rfl

theorem added_concat (history : List Event) (e : Event) :
    added (history ++ [e]) = added history ++ e.rule?.toList := by
  rw [added, List.filterMap_append]
  cases h : e.rule? <;> simp [added, h]

/-- One more command is one more turn of the rule that speaks. -/
theorem turns_concat (history : List Event) (e : Event) (i : Nat) :
    turns (history ++ [e]) i = turns history i +
      (e.record?.any fun asked => decide (Speaks (added history) asked.text i)).toNat := by
  unfold turns
  rw [List.length_append, List.length_singleton, List.range_succ, List.countP_append]
  congr 1
  · refine List.countP_congr fun k hk => ?_
    have hlt := List.mem_range.mp hk
    rw [List.getElem?_append_left hlt, List.take_append_of_le_length (Nat.le_of_lt hlt)]
  · rw [List.countP_singleton, List.getElem?_concat_length, List.take_left' rfl, Option.bind_some]
    cases e.record?.any _ <;> rfl

/-- An event adds a rule in front of all others or asks for a command. -/
theorem Event.rule_or_command (e : Event) :
    (∃ r, e.rule? = some r ∧ e.record? = none ∧ ∀ b, e.apply b = b.add r.opening r.answers) ∨
      ∃ directory c, e = .command directory c := by
  cases e with
  | respond opening lines => exact .inl ⟨_, rfl, rfl, fun _ => rfl⟩
  | respondInTurn opening outputs => exact .inl ⟨_, rfl, rfl, fun _ => rfl⟩
  | fail opening code => exact .inl ⟨_, rfl, rfl, fun _ => rfl⟩
  | command directory c => exact .inr ⟨directory, c, rfl⟩

/-- A rule that was not yet added had no turn. -/
theorem turns_eq_zero (history : List Event) {i : Nat} (hi : (added history).length ≤ i) :
    turns history i = 0 := by
  induction history using List.reverseRecOn with
  | nil => rfl
  | append_singleton history e ih =>
    rw [added_concat, List.length_append] at hi
    rw [turns_concat, ih (by omega), Nat.zero_add]
    cases hasked : e.record? with
    | none => rfl
    | some asked =>
      have hnot : ¬ Speaks (added history) asked.text i := fun h => by
        rw [Speaks, List.getElem?_eq_none (by omega)] at h
        cases h.1
      simp [hnot]

/-- The rules with what their turns have left of them. -/
def left (history : List Event) : List Rule :=
  (added history).mapIdx fun i r => r.spent (turns history i)

theorem speaks_left_iff {history : List Event} {text : String} {i : Nat} :
    Speaks (left history) text i ↔ Speaks (added history) text i := by
  refine Speaks.congr (List.ext_getElem? fun j => ?_)
  simp only [left, List.getElem?_map, List.getElem?_mapIdx, Option.map_map]
  rfl

/-- A rule that is added has all its replies left, and takes no turn from another. -/
theorem left_concat_of_rule {history : List Event} {e : Event} {r : Rule} (hrule : e.rule? = some r)
    (hrecord : e.record? = none) : left (history ++ [e]) = left history ++ [r] := by
  have hturns : ∀ i, turns (history ++ [e]) i = turns history i := by
    intro i
    rw [turns_concat, hrecord]
    rfl
  unfold left
  rw [added_concat, hrule, Option.toList_some, List.mapIdx_append]
  simp only [hturns, List.mapIdx_cons, List.mapIdx_nil, Nat.zero_add,
    turns_eq_zero history (Nat.le_refl _), Rule.spent_zero]

/-- What a command leaves of each rule. -/
theorem getElem?_left_concat_command (history : List Event) (directory : Path) (c : Command)
    (j : Nat) :
    (left (history ++ [.command directory c]))[j]? =
      if Speaks (left history) c.text j then (left history)[j]?.map Rule.advance
      else (left history)[j]? := by
  have hadded : added (history ++ [.command directory c]) = added history := by
    rw [added_concat]
    exact List.append_nil _
  have hturns : turns (history ++ [.command directory c]) j =
      turns history j + (decide (Speaks (added history) c.text j)).toNat := by
    rw [turns_concat]
    rfl
  by_cases h : Speaks (left history) c.text j
  · rw [if_pos h]
    simp only [left, hadded, List.getElem?_mapIdx, hturns, speaks_left_iff.mp h, decide_true,
      Bool.toNat_true, Option.map_map]
    exact Option.map_congr fun r _ => (r.advance_spent _).symm
  · rw [if_neg h]
    simp only [left, hadded, List.getElem?_mapIdx, hturns, mt speaks_left_iff.mpr h, decide_false,
      Bool.toNat_false, Nat.add_zero]

/-- After any history, each rule has been used up as far as it had turns. -/
theorem rules_after (history : List Event) : (after history).rules = (left history).reverse := by
  induction history using List.reverseRecOn with
  | nil => rfl
  | append_singleton history e ih =>
    rw [after_concat]
    rcases e.rule_or_command with ⟨r, hrule, hrecord, happly⟩ | ⟨directory, c, rfl⟩
    · rw [happly, left_concat_of_rule hrule hrecord, List.reverse_append, ← ih]
      rfl
    · show (consult c.text (after history).rules).2 = _
      rw [ih]
      by_cases h : ∃ i, Speaks (left history) c.text i
      · obtain ⟨i, hi⟩ := h
        obtain ⟨⟨r, hr, -⟩, -⟩ := Speaks.iff_getElem?.mp hi
        rw [consult_of_speaks hi hr]
        refine congrArg List.reverse (List.ext_getElem? fun j => ?_)
        rw [getElem?_left_concat_command]
        by_cases hj : i = j
        · subst hj
          rw [if_pos hi, hr, List.getElem?_set_self (List.getElem?_eq_some_iff.mp hr).1]
          rfl
        · rw [if_neg fun hother => hj (hi.unique hother), List.getElem?_set_ne hj]
      · rw [consult_of_forall_not (not_exists.mp h)]
        refine congrArg List.reverse (List.ext_getElem? fun j => ?_)
        rw [getElem?_left_concat_command, if_neg (not_exists.mp h j)]

/-- The commands are recorded in order, with their directories, however they were answered. -/
theorem records_after (history : List Event) :
    (after history).records = history.filterMap Event.record? := by
  induction history using List.reverseRecOn with
  | nil => rfl
  | append_singleton history e ih =>
    rw [after_concat, List.filterMap_append, ← ih]
    cases e with
    | command directory c => rfl
    | _ => exact (List.append_nil _).symm

/-- A rulebook answers by the latest rule whose opening begins the command, with the reply whose
number is that of the rule's turn, or its last reply once there are no more; a rule without replies
and a command without a rule are answered with silent success.  It records every command, and counts
among the records. -/
theorem answers_by_latest_rule_in_turn (history : List Event) (directory : Path)
    (command : Command) :
    (∀ i rule, (added history)[i]? = some rule → Speaks (added history) command.text i →
      ((after history).answer directory command).1 =
        match rule.answers[min (turns history i + 1) rule.answers.length - 1]? with
        | some reply => reply.outcome command.text
        | none => .ok .silent) ∧
    ((∀ i, ¬ Speaks (added history) command.text i) →
      ((after history).answer directory command).1 = .ok .silent) ∧
    (after history).records = history.filterMap Event.record? ∧
    ∀ opening, (after history).count opening =
      (history.filterMap Event.record?).countP fun asked =>
        decide (opening.toList <+: asked.text.toList) := by
  refine ⟨fun i rule hrule hspeaks => ?_, fun hnone => ?_, records_after history, fun opening => ?_⟩
  · have hleft : (left history)[i]? = some (rule.spent (turns history i)) := by
      rw [left, List.getElem?_mapIdx, hrule]
      rfl
    rw [answer, rules_after, consult_of_speaks (speaks_left_iff.mpr hspeaks) hleft]
    dsimp only
    rw [Rule.head?_answers_spent]
    cases rule.answers[min (turns history i + 1) rule.answers.length - 1]? <;> rfl
  · rw [answer, rules_after, consult_of_forall_not fun i hi => hnone i (speaks_left_iff.mp hi)]
  · rw [count, texts, records_after, List.filter_map, List.length_map, ← List.countP_eq_length_filter]
    refine List.countP_congr fun asked _ => ?_
    simp [begins]

/-- Two commits that are told in turn.  After the first one a later rule answers for the remote
branch, and has once done so. -/
def shadowed : List Event :=
  [.respondInTurn "git rev-parse" [["aaa"], ["bbb"]],
    .command ⟨"svc"⟩ ⟨"git", ["rev-parse", "master"]⟩,
    .respond "git rev-parse origin" ["ccc"],
    .command ⟨"svc"⟩ ⟨"git", ["rev-parse", "origin/master"]⟩]

/-- The answer for the remote branch has not taken the second commit away. -/
theorem answers_by_latest_rule_in_turn_shadowed :
    Speaks (added shadowed) "git rev-parse master" 0 ∧ turns shadowed 0 = 1 ∧
    ((after shadowed).answer ⟨"svc"⟩ ⟨"git", ["rev-parse", "master"]⟩).1 =
      .ok (.ofLines ["bbb"]) := by
  have hspeaks : Speaks (added shadowed) "git rev-parse master" 0 := by decide
  have hturns : turns shadowed 0 = 1 := by decide
  have hanswer := (answers_by_latest_rule_in_turn shadowed ⟨"svc"⟩
    ⟨"git", ["rev-parse", "master"]⟩).1 0 _ rfl hspeaks
  rw [hturns] at hanswer
  exact ⟨hspeaks, hturns, hanswer⟩

end Rulebook

end DaemonKeeper.Rehearsal
