import DaemonKeeper.Proofs.KeyOrder
import DaemonKeeper.Proofs.Outcome
set_option autoImplicit false

/-!
# Numbers that can be held

A document has numbers of any size.  A value that nothing asks for is still taken in, which fails if
and only if one of its numbers is too wide for where it is taken in.
-/

namespace DaemonKeeper

namespace Toml

/-! ## Held values -/

/-- The whole numbers that can be held: in a generic value those of 64 bits with a sign, straight
from a document those of 128 bits with or without one. -/
def isWord (generic : Bool) (n : Int) : Bool :=
  if generic then -Word.bound63 ≤ n && n < Word.bound63 else -Word.bound127 ≤ n && n < Word.bound128

theorem isWord_generic_iff {n : Int} :
    isWord true n = true ↔ -(Word.bound63 : Int) ≤ n ∧ n < Word.bound63 := by
  simp [isWord]

theorem isWord_document_iff {n : Int} :
    isWord false n = true ↔ -(Word.bound127 : Int) ≤ n ∧ n < Word.bound128 := by
  simp [isWord]

/-- The number can be held as a binary number. -/
def Float.isBinary64 : Float → Bool
  | .finite _ digits exponent => (Decimal.ofDecimal digits exponent).isSome
  | .infinite _ | .notANumber => true

mutual
/-- Every number in the value can be held. -/
def Value.held (generic : Bool) : Value → Bool
  | .integer n => n.any (isWord generic)
  | .float f => f.isBinary64
  | .array elements => allHeld generic elements
  | .table entries => entriesHeld generic entries
  | .text _ | .boolean _ | .datetime _ => true

/-- So can those in the elements of an array. -/
def allHeld (generic : Bool) : List Value → Bool
  | [] => true
  | v :: rest => v.held generic && allHeld generic rest

/-- So can those in the values of a table. -/
def entriesHeld (generic : Bool) : List (String × Value) → Bool
  | [] => true
  | (_, v) :: rest => v.held generic && entriesHeld generic rest
end

variable {generic : Bool}

theorem entriesHeld_iff {entries : Table} :
    entriesHeld generic entries = true ↔ ∀ e ∈ entries, e.2.held generic = true := by
  induction entries with
  | nil => simp [entriesHeld]
  | cons e rest ih => rw [entriesHeld, Bool.and_eq_true, ih, List.forall_mem_cons]

/-- The order of entries makes no difference. -/
theorem entriesHeld_perm {entries others : Table} (h : others.Perm entries) :
    entriesHeld generic others = entriesHeld generic entries := by
  rw [Bool.eq_iff_iff, entriesHeld_iff, entriesHeld_iff]
  exact forall_congr' fun e => imp_congr_left h.mem_iff

mutual
theorem held_inKeyOrder (generic : Bool) (v : Value) :
    v.inKeyOrder.held generic = v.held generic := by
  cases v with
  | array elements => exact allHeld_inKeyOrder generic elements
  | table entries =>
    exact (entriesHeld_perm (List.perm_insertionSort KeyLE _)).trans
      (entriesHeld_inKeyOrder generic entries)
  | _ => rfl

theorem allHeld_inKeyOrder (generic : Bool) (elements : List Value) :
    allHeld generic (allInKeyOrder elements) = allHeld generic elements := by
  cases elements with
  | nil => rfl
  | cons v rest =>
    rw [allInKeyOrder, allHeld, allHeld, held_inKeyOrder generic v, allHeld_inKeyOrder generic rest]

theorem entriesHeld_inKeyOrder (generic : Bool) (entries : List (String × Value)) :
    entriesHeld generic (entriesInKeyOrder entries) = entriesHeld generic entries := by
  cases entries with
  | nil => rfl
  | cons e rest =>
    rw [entriesInKeyOrder, entriesHeld, entriesHeld, held_inKeyOrder generic e.2,
      entriesHeld_inKeyOrder generic rest]
end

/-- Alike values hold the same numbers. -/
theorem Value.Alike.held_eq {v w : Value} (h : v.Alike w) : w.held generic = v.held generic := by
  rw [← held_inKeyOrder generic w, ← held_inKeyOrder generic v, h]

end Toml

namespace Config

open Toml

/-! ## Taking in -/

variable {generic : Bool}

/-- An integer shows itself as a number of 64 bits, as a wider one, or not at all. -/
theorem seeInteger_cases (n : Int) :
    (seeInteger (some n) = .ok (.integer n) ∧ -Word.bound63 ≤ n ∧ n < Word.bound64) ∨
    (∃ f, seeInteger (some n) = .ok (.found f) ∧ (n < -Word.bound63 ∨ Word.bound64 ≤ n) ∧
      -Word.bound127 ≤ n ∧ n < Word.bound128) ∨
    (seeInteger (some n) = .error .integerTooWide ∧ (n < -Word.bound127 ∨ Word.bound128 ≤ n)) := by
  simp only [seeInteger, Bool.and_eq_true, decide_eq_true_eq]
  split_ifs with hword hwide hwidest
  · exact .inl ⟨rfl, hword⟩
  · exact .inr (.inl ⟨_, rfl, by omega, by simp only [Word.bound127, Word.bound128] at *; omega⟩)
  · exact .inr (.inl ⟨_, rfl, by omega, by simp only [Word.bound127, Word.bound128] at *; omega⟩)
  · exact .inr (.inr ⟨rfl, by simp only [Word.bound127, Word.bound128] at *; omega⟩)

theorem takeIn_integer_eq_ok_iff {n : Int} :
    takeIn generic (.integer (some n)) = .ok () ↔ isWord generic n = true := by
  obtain ⟨hsee, hword⟩ | ⟨f, hsee, hwide, hwidest⟩ | ⟨hsee, hwidest⟩ := seeInteger_cases n
  · rw [takeIn, hsee]
    show (if (generic && decide ((Word.bound63 : Int) ≤ n)) = true then _ else _) = _ ↔ _
    cases generic with
    | true =>
      rw [isWord_generic_iff, Bool.true_and]
      split_ifs with hlarge <;> rw [decide_eq_true_eq] at hlarge
      · exact iff_of_false nofun (by omega)
      · exact iff_of_true rfl (by omega)
    | false =>
      rw [isWord_document_iff]
      exact iff_of_true rfl
        (by simp only [Word.bound63, Word.bound64, Word.bound127, Word.bound128] at *; omega)
  · rw [takeIn, hsee]
    cases generic with
    | true =>
      rw [isWord_generic_iff]
      exact iff_of_false nofun (by simp only [Word.bound63, Word.bound64] at *; omega)
    | false =>
      rw [isWord_document_iff]
      exact iff_of_true rfl hwidest
  · rw [takeIn, hsee]
    refine iff_of_false nofun ?_
    cases generic with
    | true =>
      rw [isWord_generic_iff]
      simp only [Word.bound63, Word.bound127, Word.bound128] at *
      omega
    | false =>
      rw [isWord_document_iff]
      omega

theorem isSome_floatText (f : Toml.Float) : (floatText f).isSome = f.isBinary64 := by
  cases f with
  | finite negative digits exponent => exact Option.isSome_map
  | _ => rfl

mutual
/-- A value can be taken in if and only if its numbers can be held. -/
theorem takeIn_eq_ok_iff (generic : Bool) (v : Value) :
    takeIn generic v = .ok () ↔ v.held generic = true := by
  cases v with
  | integer n =>
    cases n with
    | none => exact iff_of_false nofun nofun
    | some n => exact takeIn_integer_eq_ok_iff
  | float f =>
    rw [takeIn, Value.held, isSome_floatText]
    split_ifs with hshown
    · exact iff_of_true rfl hshown
    · exact iff_of_false nofun hshown
  | array elements => exact takeInAll_eq_ok_iff generic elements
  | table entries => exact takeInEntries_eq_ok_iff generic entries
  | _ => exact iff_of_true rfl rfl

theorem takeInAll_eq_ok_iff (generic : Bool) (elements : List Value) :
    takeInAll generic elements = .ok () ↔ allHeld generic elements = true := by
  cases elements with
  | nil => exact iff_of_true rfl rfl
  | cons v rest =>
    rw [takeInAll, bind_eq_ok_iff, allHeld, Bool.and_eq_true, ← takeIn_eq_ok_iff generic v,
      ← takeInAll_eq_ok_iff generic rest]
    exact ⟨fun ⟨_, hv, hrest⟩ => ⟨hv, hrest⟩, fun ⟨hv, hrest⟩ => ⟨(), hv, hrest⟩⟩

theorem takeInEntries_eq_ok_iff (generic : Bool) (entries : List (String × Value)) :
    takeInEntries generic entries = .ok () ↔ entriesHeld generic entries = true := by
  cases entries with
  | nil => exact iff_of_true rfl rfl
  | cons e rest =>
    rw [takeInEntries, bind_eq_ok_iff, entriesHeld, Bool.and_eq_true, ← takeIn_eq_ok_iff generic e.2,
      ← takeInEntries_eq_ok_iff generic rest]
    exact ⟨fun ⟨_, hv, hrest⟩ => ⟨hv, hrest⟩, fun ⟨hv, hrest⟩ => ⟨(), hv, hrest⟩⟩
end

end Config

end DaemonKeeper
