import DaemonKeeper.Proofs.PartyLogs
import Mathlib.Data.List.Induction
set_option autoImplicit false

/-!
# Children that end when they are told to

A child is obedient if it does not end before it is asked to, and does not let more than so many
queries pass after that.  Seen from the trace of a whole run this is a property of the replies about
one process id; seen from the handle that holds the child it is a property of the handle's own
exchanges, because nobody else deals with that child.
-/

namespace DaemonKeeper

open Log ManagedProcess

/-- What is known of the child with some process id. -/
inductive Standing where
  /-- No such child was started, or it is known to have ended. -/
  | stranger
  | running
  /-- It was asked to end, and so many queries since then have not seen it end. -/
  | leaving (checks : Nat)
  deriving DecidableEq, Repr

namespace Standing

/-- What is known of the child after one more query that has not seen it end. -/
def asked : Standing → Standing
  | stranger => stranger
  | running => running
  | leaving checks => leaving (checks + 1)

/-- What is known of it after it was signalled. -/
def signalled : Standing → Standing
  | running => leaving 0
  | standing => standing

/-- What is known of the child after an exchange. -/
def after (pid : Nat) (standing : Standing) : Exchange → Standing
  | ⟨.spawn _ _, .ok pid'⟩ => if pid' = pid then running else standing
  | ⟨.signal target _, .ok ()⟩ => if target = pid then standing.signalled else standing
  | ⟨.status pid', .exited⟩ => if pid' = pid then stranger else standing
  | ⟨.status pid', _⟩ => if pid' = pid then standing.asked else standing
  | _ => standing

/-- What may be replied about the child: it does not end while it is merely running, and once it was
asked to end, no more than so many queries do not see it. -/
def allows (maxChecks pid : Nat) : Standing → Exchange → Bool
  | running, ⟨.status pid', reply⟩ => pid' ≠ pid || reply ≠ .exited
  | leaving checks, ⟨.status pid', reply⟩ => pid' ≠ pid || reply = .exited || checks < maxChecks
  | _, _ => true

end Standing

/-- What is known of a child after a trace. -/
def standing (pid : Nat) (trace : List Exchange) : Standing :=
  trace.foldl (Standing.after pid) .stranger

theorem standing_concat (pid : Nat) (trace : List Exchange) (e : Exchange) :
    standing pid (trace ++ [e]) = (standing pid trace).after pid e := by
  simp [standing]

/-- The children that are started in a trace end only after they were asked to, and no more than
`maxChecks` queries after that. -/
def Obedient (maxChecks : Nat) (trace : List Exchange) : Prop :=
  ∀ before e after pid, trace = before ++ e :: after →
    (standing pid before).allows maxChecks pid e = true

namespace Obedient

variable {maxChecks : Nat} {trace rest : List Exchange}

theorem left (h : Obedient maxChecks (trace ++ rest)) : Obedient maxChecks trace := by
  intro before e after pid htrace
  exact h before e (after ++ rest) pid (by rw [htrace]; simp)

end Obedient

/-! ## Deciding whether children are obedient -/

/-- Goes through a trace and checks the replies about one child. -/
def obeys (maxChecks pid : Nat) : Standing → List Exchange → Bool
  | _, [] => true
  | st, e :: rest => st.allows maxChecks pid e && obeys maxChecks pid (st.after pid e) rest

theorem obeys_iff {maxChecks pid : Nat} {st : Standing} {trace : List Exchange} :
    obeys maxChecks pid st trace = true ↔ ∀ before e after, trace = before ++ e :: after →
      (before.foldl (Standing.after pid) st).allows maxChecks pid e = true := by
  induction trace generalizing st with
  | nil => simp [obeys]
  | cons e rest ih =>
    rw [obeys, Bool.and_eq_true, ih]
    constructor
    · rintro ⟨hfirst, hrest⟩ before e' after htrace
      cases before with
      | nil =>
        obtain ⟨rfl, -⟩ := List.cons.inj htrace
        exact hfirst
      | cons e₀ before =>
        obtain ⟨rfl, hlater⟩ := List.cons.inj htrace
        exact hrest before e' after hlater
    · intro h
      refine ⟨h [] e rest rfl, fun before e' after hrest => ?_⟩
      exact h (e :: before) e' after (congrArg (e :: ·) hrest)

/-- Of a child that was not started nothing becomes known. -/
theorem standing_eq_stranger {pid : Nat} {trace : List Exchange}
    (h : ∀ e ∈ trace, e.spawned? ≠ some pid) : standing pid trace = .stranger := by
  induction trace using List.reverseRecOn with
  | nil => rfl
  | append_singleton trace e ih =>
    rw [standing_concat, ih fun e' he' => h e' (by simp [he'])]
    have he := h e (by simp)
    obtain ⟨request, reply⟩ := e
    cases request with
    | spawn executable arguments =>
      cases reply with
      | ok pid' => exact if_neg fun hsame => he (congrArg some hsame)
      | error cause => rfl
    | signal target signal => cases reply <;> simp [Standing.after, Standing.signalled]
    | status pid' => cases reply <;> simp [Standing.after, Standing.asked]
    | _ => rfl

/-- Only the children that were started have to be looked at. -/
theorem obedient_iff {maxChecks : Nat} {trace : List Exchange} :
    Obedient maxChecks trace ↔
      ∀ pid ∈ trace.filterMap Exchange.spawned?, obeys maxChecks pid .stranger trace = true := by
  constructor
  · intro h pid _
    exact obeys_iff.mpr fun before e after htrace => h before e after pid htrace
  · intro h before e after pid htrace
    by_cases hpid : pid ∈ trace.filterMap Exchange.spawned?
    · exact obeys_iff.mp (h pid hpid) before e after htrace
    · have hstranger : standing pid before = .stranger := by
        refine standing_eq_stranger fun e' he' hspawned => hpid ?_
        have hmem : e' ∈ trace := by
          rw [htrace]
          exact List.mem_append_left _ he'
        exact List.mem_filterMap.mpr ⟨e', hmem, hspawned⟩
      rw [hstranger]
      rfl

instance {maxChecks : Nat} {trace : List Exchange} : Decidable (Obedient maxChecks trace) :=
  decidable_of_iff _ obedient_iff.symm

/-! ## Single handles -/

/-- The same for the exchanges of one handle and the children that it holds. -/
def LedBy (maxChecks : Nat) (own : List Exchange) : Prop :=
  ∀ before e after pid, own = before ++ e :: after → held none before = some pid →
    (standing pid before).allows maxChecks pid e = true

namespace LedBy

variable {maxChecks : Nat} {own rest : List Exchange}

theorem left (h : LedBy maxChecks (own ++ rest)) : LedBy maxChecks own := by
  intro before e after pid hown
  exact h before e (after ++ rest) pid (by rw [hown]; simp)

end LedBy

/-! ## Nobody else deals with the child -/

variable {table : Holdings} {out : List Nat} {party : Party} {pid : Nat} {log : Log}

/-- What somebody exchanges who does not hold the child says nothing about it. -/
theorem Standing.after_eq_of_other {first : Option Nat} {e : Exchange} (h : Proper first e)
    (hfirst : first ≠ some pid) (hfresh : ∀ pid' ∈ e.spawned?, pid' ≠ pid) (st : Standing) :
    st.after pid e = st := by
  obtain ⟨request, reply⟩ := e
  cases request with
  | spawn executable arguments =>
    cases reply with
    | ok pid' => exact if_neg (hfresh pid' rfl)
    | error cause => rfl
  | signal target signal =>
    have htarget : target ≠ pid := by
      rw [h.1]
      exact fun htold => hfirst (told_eq_iff.mp htold)
    cases reply with
    | ok => exact if_neg htarget
    | error cause => rfl
  | status pid' =>
    have hpid : pid' ≠ pid := by
      rintro rfl
      exact hfirst h
    cases reply <;> exact if_neg hpid
  | _ => rfl

/-- What is known of a child that a party holds is known from that party's own exchanges. -/
theorem standing_own (hheldOnce : HeldOnce table out) (hkept : Kept table log)
    (hfresh : FreshPids out log.trace) (hnone : table party = none)
    (hheld : held none (log.own party) = some pid) :
    standing pid log.trace = standing pid (log.own party) := by
  induction log using List.reverseRecOn with
  | nil => cases hheld
  | append_singleton log entry ih =>
    obtain ⟨other, e⟩ := entry
    obtain ⟨hbefore, hlast⟩ := Kept.append_iff.mp hkept
    obtain ⟨hproper, -⟩ := Kept.cons_iff.mp hlast
    rw [trace_append, freshPids_append] at hfresh
    obtain ⟨hfresh, hnew, -⟩ := hfresh
    have hnow := hheldOnce.after hbefore hfresh
    have hparty : Holdings.after table log party = held none (own party log) := by
      unfold Holdings.after
      rw [hnone]
    rw [trace_append]
    change standing pid (trace log ++ [e]) = _
    rw [standing_concat]
    by_cases hother : other = party
    · subst hother
      have hown : own other (log ++ [(other, e)]) = own other log ++ [e] := by simp
      rw [hown, held_append] at hheld
      rw [hown, standing_concat]
      rw [hparty] at hproper
      rcases hproper.cases with ⟨pid', hspawned, -, -, hholds⟩ | ⟨_, -, -, -, hholds⟩ |
        ⟨-, -, hholds⟩
      · -- A child that was just started is running, whatever was known of its process id.
        obtain rfl : pid' = pid := by
          rw [held_cons, hholds] at hheld
          exact Option.some.inj hheld
        obtain ⟨request, reply⟩ := e
        cases request with
        | spawn executable arguments =>
          cases reply with
          | ok pid' =>
            obtain rfl := Option.some.inj hspawned
            simp [Standing.after]
          | error cause => cases hspawned
        | _ => cases hspawned
      · rw [held_cons, hholds] at hheld
        cases hheld
      · rw [held_cons, hholds] at hheld
        rw [ih hbefore hfresh hheld]
    · have hown : own party (log ++ [(other, e)]) = own party log := by
        rw [own_append, own_cons_of_ne hother, own_nil, List.append_nil]
      rw [hown] at hheld ⊢
      have hholds : table.after log party = some pid := hparty.trans hheld
      rw [ih hbefore hfresh hheld]
      refine Standing.after_eq_of_other hproper (fun hsame => ?_) (fun pid' hspawned => ?_) _
      · exact hother (hnow.single other party pid hsame hholds)
      · rintro rfl
        exact hnew pid' hspawned (hnow.listed party pid' hholds)

/-- If the children of a run are obedient, those of each party are, seen from its own exchanges. -/
theorem ledBy_of_obedient {maxChecks : Nat} (hheldOnce : HeldOnce table out)
    (hkept : Kept table log) (hfresh : FreshPids out log.trace) (hnone : table party = none)
    (hobedient : Obedient maxChecks log.trace) : LedBy maxChecks (log.own party) := by
  intro before e after pid hown hheld
  obtain ⟨first, rest, rfl, hfirst, hrest⟩ := List.filterMap_eq_append_iff.mp hown
  obtain ⟨passed, entry, last, rfl, hpassed, hentry, -⟩ := List.filterMap_eq_cons_iff.mp hrest
  have hbefore : own party (first ++ passed) = before := by
    have hnobody : own party passed = [] := List.filterMap_eq_nil_iff.mpr hpassed
    rw [own_append, hnobody, List.append_nil]
    exact hfirst
  have he : entry.2 = e := by
    by_cases hparty : entry.1 = party
    · simpa [hparty] using hentry
    · simp [hparty] at hentry
  have hsplit : first ++ (passed ++ entry :: last) = (first ++ passed) ++ entry :: last := by simp
  rw [hsplit] at hkept hfresh hobedient
  rw [trace_append] at hfresh hobedient
  have hstanding := standing_own hheldOnce (Kept.append_iff.mp hkept).1
    (freshPids_append.mp hfresh).1 hnone (by rw [hbefore]; exact hheld)
  rw [hbefore] at hstanding
  rw [← hstanding, ← he]
  exact hobedient _ entry.2 _ pid rfl

end DaemonKeeper
