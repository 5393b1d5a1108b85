import DaemonKeeper.Config.Form
import Mathlib.Data.List.Sort
set_option autoImplicit false

/-!
# The order of keys

The tables of a document have their keys in some order, which says nothing about what is written.
Values are alike if they are the same once all their tables are put in the order of their keys.  No
form that a value is asked for in tells alike values apart.
-/

namespace DaemonKeeper

namespace Toml

/-! ## Alike values -/

/-- The key of one entry does not come after that of another. -/
def KeyLE (a b : String × Value) : Prop := a.1 ≤ b.1

instance : DecidableRel KeyLE := fun a b => inferInstanceAs (Decidable (a.1 ≤ b.1))

instance : Std.Total KeyLE := ⟨fun a b => String.le_total a.1 b.1⟩

instance : IsTrans (String × Value) KeyLE := ⟨fun _ _ _ => String.le_trans⟩

mutual
/-- The value with all its tables in the order of their keys. -/
def Value.inKeyOrder : Value → Value
  | .array elements => .array (allInKeyOrder elements)
  | .table entries => .table ((entriesInKeyOrder entries).insertionSort KeyLE)
  | v => v

/-- The elements of an array, each with its tables in order. -/
def allInKeyOrder : List Value → List Value
  | [] => []
  | v :: rest => v.inKeyOrder :: allInKeyOrder rest

/-- The entries of a table where they stand, each with its tables in order. -/
def entriesInKeyOrder : List (String × Value) → List (String × Value)
  | [] => []
  | (key, v) :: rest => (key, v.inKeyOrder) :: entriesInKeyOrder rest
end

/-- The values differ at most in the order of the keys of tables. -/
def Value.Alike (v w : Value) : Prop := v.inKeyOrder = w.inKeyOrder

theorem allInKeyOrder_eq_map (elements : List Value) :
    allInKeyOrder elements = elements.map Value.inKeyOrder := by
  induction elements with
  | nil => rfl
  | cons v rest ih => rw [allInKeyOrder, ih, List.map_cons]

theorem entriesInKeyOrder_eq_map (entries : List (String × Value)) :
    entriesInKeyOrder entries = entries.map fun e => (e.1, e.2.inKeyOrder) := by
  induction entries with
  | nil => rfl
  | cons e rest ih => rw [entriesInKeyOrder, ih, List.map_cons]

/-- Putting a table in order leaves its number of entries. -/
theorem inKeyOrder_table (entries : Table) :
    ∃ sorted, (Value.table entries).inKeyOrder = .table sorted ∧ sorted.length = entries.length := by
  refine ⟨_, rfl, ?_⟩
  rw [List.length_insertionSort, entriesInKeyOrder_eq_map, List.length_map]

namespace Value.Alike

variable {v w : Value}

theorem refl (v : Value) : v.Alike v := rfl

theorem symm (h : v.Alike w) : w.Alike v := Eq.symm h

/-- A table is like one whose keys stand in another order. -/
theorem of_perm {entries others : Table} (h : others.Perm entries)
    (hnodup : (entries.map (·.1)).Nodup) : Value.Alike (.table others) (.table entries) := by
  refine congrArg Value.table (List.Perm.eq_of_pairwise ?_ (List.pairwise_insertionSort KeyLE _)
    (List.pairwise_insertionSort KeyLE _) ?_)
  · intro a b ha hb hab hba
    have hkeys : ((entriesInKeyOrder entries).map (·.1)).Nodup := by
      rw [entriesInKeyOrder_eq_map, List.map_map]
      exact hnodup
    rw [List.mem_insertionSort, entriesInKeyOrder_eq_map] at ha hb
    rw [(h.map _).mem_iff, ← entriesInKeyOrder_eq_map] at ha
    rw [← entriesInKeyOrder_eq_map] at hb
    exact List.inj_on_of_nodup_map hkeys ha hb (String.le_antisymm hab hba)
  · refine (List.perm_insertionSort KeyLE _).trans (.trans ?_ (List.perm_insertionSort KeyLE _).symm)
    rw [entriesInKeyOrder_eq_map, entriesInKeyOrder_eq_map]
    exact h.map _

/-- An array is like one whose elements are alike, place by place. -/
theorem array_iff {vs ws : List Value} :
    Value.Alike (.array vs) (.array ws) ↔ List.Forall₂ Value.Alike vs ws := by
  have hmap : List.Forall₂ Value.Alike vs ws ↔
      vs.map Value.inKeyOrder = ws.map Value.inKeyOrder := by
    rw [← List.forall₂_eq_eq_eq, List.forall₂_map_left_iff, List.forall₂_map_right_iff]
    rfl
  rw [hmap, ← allInKeyOrder_eq_map, ← allInKeyOrder_eq_map]
  exact ⟨Value.array.inj, congrArg Value.array⟩

/-- Only a table is like a table, and only an array is like an array. -/
theorem eq_of_simple (h : v.Alike w) (harray : ∀ vs, v ≠ .array vs) (htable : ∀ es, v ≠ .table es) :
    w = v := by
  cases v with
  | array vs => exact absurd rfl (harray vs)
  | table es => exact absurd rfl (htable es)
  | _ => cases w <;> first | exact h.symm | cases h

end Value.Alike

/-! ## Distinct keys -/

mutual
/-- Every table in the value has each of its keys once. -/
def Value.keysDistinct : Value → Bool
  | .array elements => allKeysDistinct elements
  | .table entries => decide (entries.map (·.1)).Nodup && entriesKeysDistinct entries
  | .text _ | .integer _ | .float _ | .boolean _ | .datetime _ => true

/-- So do the elements of an array. -/
def allKeysDistinct : List Value → Bool
  | [] => true
  | v :: rest => v.keysDistinct && allKeysDistinct rest

/-- So do the values of a table. -/
def entriesKeysDistinct : List (String × Value) → Bool
  | [] => true
  | (_, v) :: rest => v.keysDistinct && entriesKeysDistinct rest
end

theorem entriesKeysDistinct_iff {entries : Table} :
    entriesKeysDistinct entries = true ↔ ∀ e ∈ entries, e.2.keysDistinct = true := by
  induction entries with
  | nil => simp [entriesKeysDistinct]
  | cons e rest ih => rw [entriesKeysDistinct, Bool.and_eq_true, ih, List.forall_mem_cons]

theorem keysDistinct_table_iff {entries : Table} :
    (Value.table entries).keysDistinct = true ↔
      (entries.map (·.1)).Nodup ∧ ∀ e ∈ entries, e.2.keysDistinct = true := by
  rw [Value.keysDistinct, Bool.and_eq_true, decide_eq_true_eq, entriesKeysDistinct_iff]

end Toml

namespace Config

open Toml

/-! ## Forms and the order of keys -/

/-- A form that reads alike values alike. -/
def Orderless {α : Type} (form : Value → Except FormFault α) : Prop :=
  ∀ v, form v.inKeyOrder = form v

variable {α : Type} {form : Value → Except FormFault α} {v w : Value} {stage : Stage}

theorem Orderless.congr (h : Orderless form) (hv : v.Alike w) : form v = form w := by
  rw [← h v, hv, h w]

theorem orderless_stringForm : Orderless (stringForm stage) := by
  intro v
  cases v <;> rfl

theorem orderless_pathForm : Orderless (pathForm stage) := by
  intro v
  cases v <;> rfl

theorem orderless_flagForm : Orderless (flagForm stage) := by
  intro v
  cases v <;> rfl

theorem orderless_numberForm {bound : Nat} {wanted : String} :
    Orderless (numberForm stage bound wanted) := by
  intro v
  cases v <;> rfl

theorem orderless_stringsForm : Orderless (stringsForm stage) := by
  intro v
  cases v with
  | array elements =>
    show (allInKeyOrder elements).mapM (stringForm stage) = elements.mapM (stringForm stage)
    rw [allInKeyOrder_eq_map, List.mapM_map]
    exact congrArg (elements.mapM ·) (funext orderless_stringForm)
  | _ => rfl

theorem emptyContent_table {entries : Table} (h : 0 < entries.length) :
    emptyContent (.table entries) = .error (.fullContent "table") := by
  cases entries with
  | nil => exact absurd h (Nat.lt_irrefl 0)
  | cons e rest => rfl

theorem choiceForm_table (choices : List (String × α)) {entries : Table} (h : 1 < entries.length) :
    choiceForm stage choices (.table entries) = .error .manyElements := by
  rcases entries with _ | ⟨e, _ | ⟨e', rest⟩⟩
  · exact absurd h (by decide)
  · exact absurd h (by simp)
  · rfl

theorem orderless_emptyContent : Orderless emptyContent := by
  intro v
  cases v with
  | array elements => cases elements <;> rfl
  | table entries =>
    obtain ⟨sorted, hsorted, hlength⟩ := inKeyOrder_table entries
    cases entries with
    | nil => rfl
    | cons e rest =>
      rw [hsorted, emptyContent_table (by simp [hlength]), emptyContent_table (by simp)]
  | _ => rfl

theorem orderless_choiceForm (choices : List (String × α)) :
    Orderless (choiceForm stage choices) := by
  intro v
  cases v with
  | table entries =>
    obtain ⟨sorted, hsorted, hlength⟩ := inKeyOrder_table entries
    rcases entries with _ | ⟨⟨name, content⟩, _ | ⟨e, rest⟩⟩
    · rfl
    · show (do let a ← choose choices name; emptyContent content.inKeyOrder; return a) = _
      rw [orderless_emptyContent]
      rfl
    · rw [hsorted, choiceForm_table choices (by simp [hlength]), choiceForm_table choices (by simp)]
  | _ => rfl

end Config

end DaemonKeeper
