import DaemonKeeper.Proofs.HandleExchanges
import Mathlib.Logic.Function.Basic
set_option autoImplicit false

/-!
# Logs that say who exchanged what

In a run several parties talk to the machine in turn: the loop itself, the coordinator's handle and
the handle of each daemon.  A log is a trace that says of every exchange whose it is.  If every
party deals with its own child only, and the machine never hands out the process id of a child that
is still held, then no two parties ever hold the same child, and every child that lives is held by
one of them.
-/

namespace DaemonKeeper

/-- Who exchanges something with the machine in a run. -/
inductive Party where
  /-- The loop that does one thing after the other. -/
  | loop
  | coordinator
  | daemon (index : Nat)
  deriving DecidableEq, Repr

/-- A trace with the party of each exchange. -/
abbrev Log := List (Party × Exchange)

namespace Log

/-- The exchanges of all parties. -/
def trace (log : Log) : List Exchange := log.map Prod.snd

/-- The exchanges of one party. -/
def own (party : Party) (log : Log) : List Exchange :=
  log.filterMap fun entry => if entry.1 = party then some entry.2 else none

/-- What one party has exchanged, as a log. -/
def entries (party : Party) (trace : List Exchange) : Log := trace.map fun e => (party, e)

variable {party party' : Party} {e : Exchange} {log : Log}

@[simp] theorem trace_nil : trace [] = [] := rfl

@[simp] theorem trace_cons (entry : Party × Exchange) (log : Log) :
    trace (entry :: log) = entry.2 :: trace log := rfl

@[simp] theorem trace_append (log log' : Log) : trace (log ++ log') = trace log ++ trace log' :=
  List.map_append

@[simp] theorem trace_entries (party : Party) (exchanged : List Exchange) :
    trace (entries party exchanged) = exchanged :=
  List.map_map.trans (List.map_id exchanged)

@[simp] theorem own_nil (party : Party) : own party [] = [] := rfl

@[simp] theorem own_cons_self (party : Party) (e : Exchange) (log : Log) :
    own party ((party, e) :: log) = e :: own party log := by
  simp [own]

theorem own_cons_of_ne (h : party' ≠ party) (e : Exchange) (log : Log) :
    own party ((party', e) :: log) = own party log := by
  simp [own, h]

@[simp] theorem own_append (party : Party) (log log' : Log) :
    own party (log ++ log') = own party log ++ own party log' :=
  List.filterMap_append

@[simp] theorem own_entries_self (party : Party) (exchanged : List Exchange) :
    own party (entries party exchanged) = exchanged := by
  induction exchanged with
  | nil => rfl
  | cons e rest ih => exact (own_cons_self party e _).trans (congrArg (e :: ·) ih)

theorem own_entries_of_ne (h : party' ≠ party) (exchanged : List Exchange) :
    own party (entries party' exchanged) = [] := by
  induction exchanged with
  | nil => rfl
  | cons e rest ih => exact (own_cons_of_ne h e _).trans ih

/-- What a party has exchanged is in the trace. -/
theorem mem_trace_of_mem_own (h : e ∈ own party log) : e ∈ trace log := by
  obtain ⟨entry, hentry, he⟩ := List.mem_filterMap.mp h
  split at he
  · exact List.mem_map.mpr ⟨entry, hentry, Option.some.inj he⟩
  · cases he

theorem mem_own_iff : e ∈ own party log ↔ (party, e) ∈ log := by
  constructor
  · intro h
    obtain ⟨⟨party', e'⟩, hentry, he⟩ := List.mem_filterMap.mp h
    by_cases hparty : party' = party
    · simp only [hparty, if_true, Option.some.injEq] at he
      rwa [hparty, he] at hentry
    · simp [hparty] at he
  · intro h
    exact List.mem_filterMap.mpr ⟨(party, e), h, if_pos rfl⟩

end Log

open Log ManagedProcess

/-! ## Process ids -/

/-- The children that were started and are not known to have ended, after an exchange. -/
def outstandingAfter (out : List Nat) (e : Exchange) : List Nat :=
  e.spawned?.toList ++ out.filter fun pid => e.ended? ≠ some pid

/-- The machine hands out no process id of a child that was started and is not known to have
ended. -/
def FreshPids : List Nat → List Exchange → Prop
  | _, [] => True
  | out, e :: rest => (∀ pid ∈ e.spawned?, pid ∉ out) ∧ FreshPids (outstandingAfter out e) rest

instance FreshPids.decidable :
    (out : List Nat) → (trace : List Exchange) → Decidable (FreshPids out trace)
  | _, [] => isTrue trivial
  | out, e :: rest =>
    have := FreshPids.decidable (outstandingAfter out e) rest
    inferInstanceAs (Decidable (_ ∧ _))

/-- The outstanding children after a trace. -/
def outstanding (out : List Nat) (trace : List Exchange) : List Nat :=
  trace.foldl outstandingAfter out

theorem freshPids_append {out : List Nat} {trace rest : List Exchange} :
    FreshPids out (trace ++ rest) ↔
      FreshPids out trace ∧ FreshPids (outstanding out trace) rest := by
  induction trace generalizing out with
  | nil => simp [FreshPids, outstanding]
  | cons e trace ih =>
    simp only [List.cons_append, FreshPids, ih, and_assoc]
    rfl

/-! ## Who holds what -/

/-- What each party holds. -/
abbrev Holdings := Party → Option Nat

namespace Holdings

/-- What they hold after one of them has exchanged something. -/
def exchange (table : Holdings) (party : Party) (e : Exchange) : Holdings :=
  Function.update table party (holdsAfter (table party) e)

/-- What they hold after a log. -/
def after (table : Holdings) (log : Log) : Holdings := fun party =>
  held (table party) (log.own party)

variable {table : Holdings} {party : Party} {e : Exchange} {log rest : Log}

@[simp] theorem after_nil (table : Holdings) : table.after [] = table := rfl

theorem after_cons : table.after ((party, e) :: log) = (table.exchange party e).after log := by
  funext party'
  unfold after exchange
  by_cases h : party' = party
  · rw [h, own_cons_self, held_cons, Function.update_self]
  · rw [own_cons_of_ne (Ne.symm h), Function.update_of_ne h]

theorem after_append : table.after (log ++ rest) = (table.after log).after rest := by
  funext party
  unfold after
  rw [own_append, held_append]

/-- What one party has exchanged concerns what it holds and nothing else. -/
theorem after_entries (table : Holdings) (party : Party) (exchanged : List Exchange) :
    table.after (entries party exchanged) =
      Function.update table party (held (table party) exchanged) := by
  funext party'
  unfold after
  by_cases h : party' = party
  · rw [h, own_entries_self, Function.update_self]
  · rw [own_entries_of_ne (Ne.symm h), Function.update_of_ne h, held_nil]

end Holdings

/-- Every party deals with its own child only. -/
def Kept (table : Holdings) (log : Log) : Prop :=
  ∀ party, AllProper (table party) (log.own party)

namespace Kept

variable {table : Holdings} {party : Party} {e : Exchange} {log rest : Log}

theorem nil (table : Holdings) : Kept table [] := fun _ => trivial

theorem cons_iff :
    Kept table ((party, e) :: log) ↔
      Proper (table party) e ∧ Kept (table.exchange party e) log := by
  unfold Kept Holdings.exchange
  constructor
  · intro h
    have hparty := h party
    rw [own_cons_self] at hparty
    refine ⟨hparty.1, fun party' => ?_⟩
    by_cases hne : party' = party
    · rw [hne, Function.update_self]
      exact hparty.2
    · have hother := h party'
      rw [own_cons_of_ne (Ne.symm hne)] at hother
      rwa [Function.update_of_ne hne]
  · rintro ⟨hproper, hrest⟩ party'
    have hlater := hrest party'
    by_cases hne : party' = party
    · rw [hne, Function.update_self] at hlater
      rw [hne, own_cons_self]
      exact ⟨hproper, hlater⟩
    · rw [Function.update_of_ne hne] at hlater
      rwa [own_cons_of_ne (Ne.symm hne)]

theorem append_iff : Kept table (log ++ rest) ↔ Kept table log ∧ Kept (table.after log) rest := by
  unfold Kept Holdings.after
  simp only [own_append, allProper_append]
  exact forall_and

theorem entries {exchanged : List Exchange} (h : AllProper (table party) exchanged) :
    Kept table (Log.entries party exchanged) := by
  intro party'
  by_cases hne : party' = party
  · rw [hne, own_entries_self]
    exact h
  · rw [own_entries_of_ne (Ne.symm hne)]
    trivial

end Kept

/-- What a proper exchange does to what is held: it starts a child where none was held, or ends the
child that was held, or changes nothing. -/
theorem ManagedProcess.Proper.cases {first : Option Nat} {e : Exchange} (h : Proper first e) :
    (∃ pid, e.spawned? = some pid ∧ e.ended? = none ∧ first = none ∧
      holdsAfter first e = some pid) ∨
    (∃ pid, e.spawned? = none ∧ e.ended? = some pid ∧ first = some pid ∧
      holdsAfter first e = none) ∨
    (e.spawned? = none ∧ e.ended? = none ∧ holdsAfter first e = first) := by
  have hsame : e.spawned? = none → e.ended? = none → holdsAfter first e = first := by
    intro hspawned hended
    unfold holdsAfter
    rw [hspawned, hended]
    cases first <;> simp
  have hends : ∀ pid, e.spawned? = none → e.ended? = some pid → first = some pid →
      holdsAfter first e = none := by
    rintro pid hspawned hended rfl
    unfold holdsAfter
    rw [hspawned, hended]
    simp
  obtain ⟨request, reply⟩ := e
  cases request with
  | spawn executable arguments =>
    cases reply with
    | ok pid => exact .inl ⟨pid, rfl, rfl, h, rfl⟩
    | error cause => exact .inr (.inr ⟨rfl, rfl, hsame rfl rfl⟩)
  | status pid =>
    cases reply with
    | exited => exact .inr (.inl ⟨pid, rfl, rfl, h, hends pid rfl rfl h⟩)
    | alive => exact .inr (.inr ⟨rfl, rfl, hsame rfl rfl⟩)
    | unknown => exact .inr (.inr ⟨rfl, rfl, hsame rfl rfl⟩)
  | kill pid =>
    cases reply with
    | ok => exact .inr (.inl ⟨pid, rfl, rfl, h, hends pid rfl rfl h⟩)
    | error cause => exact .inr (.inr ⟨rfl, rfl, hsame rfl rfl⟩)
  | _ => exact .inr (.inr ⟨rfl, rfl, hsame rfl rfl⟩)

/-! ## No child has two holders -/

/-- Every child that is held is outstanding, and held by one party only. -/
structure HeldOnce (table : Holdings) (out : List Nat) : Prop where
  listed : ∀ party pid, table party = some pid → pid ∈ out
  single : ∀ party party' pid, table party = some pid → table party' = some pid → party = party'

namespace HeldOnce

variable {table : Holdings} {out : List Nat} {party : Party} {e : Exchange} {log rest : Log}

theorem nothing (out : List Nat) : HeldOnce (fun _ => none) out where
  listed _ _ h := by cases h
  single _ _ _ h := by cases h

/-- A proper exchange keeps it so, if a child that it starts has a fresh process id. -/
theorem exchange (h : HeldOnce table out) (hproper : Proper (table party) e)
    (hfresh : ∀ pid ∈ e.spawned?, pid ∉ out) :
    HeldOnce (table.exchange party e) (outstandingAfter out e) := by
  unfold Holdings.exchange outstandingAfter
  rcases hproper.cases with ⟨pid, hspawned, hended, -, hholds⟩ |
    ⟨pid, hspawned, hended, hheld, hholds⟩ | ⟨hspawned, hended, hholds⟩
  · -- The new child is held by nobody, because it is not outstanding.
    have hnobody : ∀ party', table party' ≠ some pid := by
      intro party' hparty'
      exact hfresh pid hspawned (h.listed party' pid hparty')
    rw [hspawned, hended, hholds]
    constructor
    · intro party' pid' hparty'
      by_cases hne : party' = party
      · rw [hne, Function.update_self] at hparty'
        simp [Option.some.inj hparty']
      · rw [Function.update_of_ne hne] at hparty'
        simp [h.listed party' pid' hparty']
    · intro party₁ party₂ pid' hparty₁ hparty₂
      by_cases hne₁ : party₁ = party <;> by_cases hne₂ : party₂ = party
      · rw [hne₁, hne₂]
      · rw [hne₁, Function.update_self] at hparty₁
        rw [Function.update_of_ne hne₂, ← hparty₁] at hparty₂
        exact absurd hparty₂ (hnobody party₂)
      · rw [hne₂, Function.update_self] at hparty₂
        rw [Function.update_of_ne hne₁, ← hparty₂] at hparty₁
        exact absurd hparty₁ (hnobody party₁)
      · rw [Function.update_of_ne hne₁] at hparty₁
        rw [Function.update_of_ne hne₂] at hparty₂
        exact h.single party₁ party₂ pid' hparty₁ hparty₂
  · rw [hspawned, hended, hholds]
    -- Who still holds something held it before, and not the child that has ended.
    have hbefore : ∀ party' pid', Function.update table party none party' = some pid' →
        table party' = some pid' ∧ pid' ≠ pid := by
      intro party' pid' hparty'
      by_cases hne : party' = party
      · rw [hne, Function.update_self] at hparty'
        cases hparty'
      · rw [Function.update_of_ne hne] at hparty'
        refine ⟨hparty', ?_⟩
        rintro rfl
        exact hne (h.single party' party pid' hparty' hheld)
    constructor
    · intro party' pid' hparty'
      obtain ⟨hheld', hne⟩ := hbefore party' pid' hparty'
      simp [h.listed party' pid' hheld', Ne.symm hne]
    · intro party₁ party₂ pid' hparty₁ hparty₂
      exact h.single party₁ party₂ pid' (hbefore party₁ pid' hparty₁).1
        (hbefore party₂ pid' hparty₂).1
  · rw [hspawned, hended, hholds, Function.update_eq_self]
    have hall : (out.filter fun pid => none ≠ some pid) = out := by simp
    rw [hall]
    exact h

/-- So it stays through a log in which every party deals with its own child only. -/
theorem after (h : HeldOnce table out) (hkept : Kept table log)
    (hfresh : FreshPids out log.trace) :
    HeldOnce (table.after log) (outstanding out log.trace) := by
  induction log generalizing table out with
  | nil => exact h
  | cons entry log ih =>
    obtain ⟨party, e⟩ := entry
    obtain ⟨hproper, hrest⟩ := Kept.cons_iff.mp hkept
    obtain ⟨hnew, hlater⟩ := hfresh
    rw [Holdings.after_cons]
    exact ih (h.exchange hproper hnew) hrest hlater

/-- No two parties hold one child at any moment of such a log. -/
theorem single_at_moment (h : HeldOnce table out) (hkept : Kept table (log ++ rest))
    (hfresh : FreshPids out (trace (log ++ rest))) {party party' : Party} {pid : Nat}
    (hparty : table.after log party = some pid) (hparty' : table.after log party' = some pid) :
    party = party' := by
  rw [trace_append, freshPids_append] at hfresh
  exact (h.after (Kept.append_iff.mp hkept).1 hfresh.1).single party party' pid hparty hparty'

end HeldOnce

/-! ## Every child that lives has a holder -/

instance ManagedProcess.Truthful.decidable :
    (alive : List Nat) → (history : List Event) → Decidable (Truthful alive history)
  | _, [] => isTrue trivial
  | alive, .exchange e :: rest =>
    have := ManagedProcess.Truthful.decidable (livingAfter alive (.exchange e)) rest
    inferInstanceAs (Decidable (_ ∧ _))
  | alive, .exit pid :: rest =>
    ManagedProcess.Truthful.decidable (livingAfter alive (.exit pid)) rest

/-- The living children are different from each other, and each is held by some party. -/
structure LivingHeld (table : Holdings) (alive : List Nat) : Prop where
  nodup : alive.Nodup
  holder : ∀ pid ∈ alive, ∃ party, table party = some pid

namespace LivingHeld

variable {table : Holdings} {alive out : List Nat} {party : Party} {e : Exchange} {log : Log}

theorem nothing (table : Holdings) : LivingHeld table [] := ⟨List.nodup_nil, nofun⟩

/-- The end of a child leaves the others with their holders. -/
theorem exit (h : LivingHeld table alive) (pid : Nat) : LivingHeld table (alive.erase pid) where
  nodup := h.nodup.erase pid
  holder q hq := h.holder q (List.mem_of_mem_erase hq)

/-- A proper exchange starts a child that is held from then on, and lets go of none that lives. -/
theorem exchange (h : LivingHeld table alive) (hheldOnce : HeldOnce table out)
    (hproper : Proper (table party) e) (hfresh : ∀ pid ∈ e.spawned?, pid ∉ out)
    (htruthful : ∀ pid ∈ e.ended?, pid ∉ alive) :
    LivingHeld (table.exchange party e) (livingAfter alive (.exchange e)) := by
  unfold Holdings.exchange
  simp only [livingAfter]
  rcases hproper.cases with ⟨pid, hspawned, -, hidle, hholds⟩ |
    ⟨pid, hspawned, hended, hheld, hholds⟩ | ⟨hspawned, -, hholds⟩
  · rw [hspawned, hholds]
    have hnew : pid ∉ alive := by
      intro hpid
      obtain ⟨party', hparty'⟩ := h.holder pid hpid
      exact hfresh pid hspawned (hheldOnce.listed party' pid hparty')
    refine ⟨List.nodup_cons.mpr ⟨hnew, h.nodup⟩, fun pid' hpid' => ?_⟩
    rcases List.mem_cons.mp hpid' with rfl | hold
    · exact ⟨party, Function.update_self party _ table⟩
    · obtain ⟨party', hparty'⟩ := h.holder pid' hold
      have hne : party' ≠ party := by
        rintro rfl
        rw [hidle] at hparty'
        cases hparty'
      exact ⟨party', by rwa [Function.update_of_ne hne]⟩
  · rw [hspawned, hholds]
    refine ⟨h.nodup, fun pid' hpid' => ?_⟩
    obtain ⟨party', hparty'⟩ := h.holder pid' hpid'
    have hne : party' ≠ party := by
      rintro rfl
      obtain rfl : pid = pid' := Option.some.inj (hheld.symm.trans hparty')
      exact htruthful pid hended hpid'
    exact ⟨party', by rwa [Function.update_of_ne hne]⟩
  · rw [hspawned, hholds, Function.update_eq_self]
    exact h

/-- So it stays through every truthful history of such a log. -/
theorem after {history : List Event} (h : LivingHeld table alive)
    (hheldOnce : HeldOnce table out) (hkept : Kept table log)
    (hfresh : FreshPids out log.trace) (hhistory : exchanges history = log.trace)
    (htruthful : Truthful alive history) :
    LivingHeld (table.after log) (living alive history) := by
  induction history generalizing table alive out log with
  | nil =>
    obtain rfl : log = [] := List.map_eq_nil_iff.mp hhistory.symm
    exact h
  | cons event history ih =>
    cases event with
    | exit pid => exact ih (h.exit pid) hheldOnce hkept hfresh hhistory htruthful
    | exchange e =>
      cases log with
      | nil => cases hhistory
      | cons entry log =>
        obtain ⟨party, e'⟩ := entry
        obtain ⟨rfl, hrest⟩ : e = e' ∧ exchanges history = trace log :=
          List.cons.inj hhistory
        obtain ⟨hproper, hlater⟩ := Kept.cons_iff.mp hkept
        rw [Holdings.after_cons]
        exact ih (h.exchange hheldOnce hproper hfresh.1 htruthful.1)
          (hheldOnce.exchange hproper hfresh.1) hlater hfresh.2 hrest htruthful.2

end LivingHeld

end DaemonKeeper
