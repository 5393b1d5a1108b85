import DaemonKeeper.Proofs.Outcome
import Mathlib.Data.List.Nodup
import Mathlib.Data.List.Perm.Basic
set_option autoImplicit false

/-!
# Entries under names

A list of named entries is searched from the front.  Where no name is there twice, what is found
under a name is its entry, and the entries can be told from what is found.  Entries that are read
one by one keep their names and their order.
-/

namespace DaemonKeeper

variable {α : Type} {entries others : List (String × α)} {name : String} {a : α}

/-- Something is found under the names of the entries, and under no others. -/
theorem mem_map_fst_iff : name ∈ entries.map (·.1) ↔ ∃ a, entries.lookup name = some a := by
  rw [← Option.isSome_iff_exists, List.lookup_isSome_iff]
  constructor
  · intro h
    obtain ⟨entry, hentry, rfl⟩ := List.mem_map.mp h
    exact ⟨entry, hentry, BEq.rfl⟩
  · rintro ⟨entry, hentry, heq⟩
    exact List.mem_map.mpr ⟨entry, hentry, (eq_of_beq heq).symm⟩

/-- Nothing is found under other names. -/
theorem lookup_eq_none_iff_notMem : entries.lookup name = none ↔ name ∉ entries.map (·.1) := by
  rw [mem_map_fst_iff, Option.eq_none_iff_forall_ne_some, not_exists]

/-- What is found under a name is an entry of that name. -/
theorem mem_of_lookup (h : entries.lookup name = some a) : (name, a) ∈ entries := by
  obtain ⟨before, after, rfl, -⟩ := List.lookup_eq_some_iff.mp h
  exact List.mem_append_right _ List.mem_cons_self

/-- Where the names are distinct, every entry is found. -/
theorem lookup_eq_some_iff_mem (h : (entries.map (·.1)).Nodup) :
    entries.lookup name = some a ↔ (name, a) ∈ entries := by
  refine ⟨mem_of_lookup, fun hmem => ?_⟩
  obtain ⟨before, after, rfl⟩ := List.append_of_mem hmem
  refine List.lookup_eq_some_iff.mpr ⟨before, after, rfl, fun entry hentry => ?_⟩
  rw [List.map_append, List.nodup_append] at h
  have hne : entry.1 ≠ name :=
    h.2.2 entry.1 (List.mem_map_of_mem hentry) name (List.mem_cons_self ..)
  exact bne_iff_ne.mpr hne.symm

/-- Entries under distinct names among which the same is found are the same, in some order. -/
theorem perm_of_lookup_eq (h : (entries.map (·.1)).Nodup) (h' : (others.map (·.1)).Nodup)
    (heq : ∀ name, others.lookup name = entries.lookup name) : others.Perm entries := by
  rw [List.perm_ext_iff_of_nodup (List.Nodup.of_map _ h') (List.Nodup.of_map _ h)]
  rintro ⟨name, a⟩
  rw [← lookup_eq_some_iff_mem h', ← lookup_eq_some_iff_mem h, heq name]

/-- The order of entries under distinct names makes no difference. -/
theorem lookup_eq_of_perm (h : others.Perm entries) (hnodup : (others.map (·.1)).Nodup)
    (name : String) : others.lookup name = entries.lookup name := by
  refine Option.ext fun a => ?_
  rw [lookup_eq_some_iff_mem hnodup, h.mem_iff,
    lookup_eq_some_iff_mem ((h.map (·.1)).nodup_iff.mp hnodup)]

/-! ## What is found in both of two lists, or in none -/

theorem exists_of_some_rel {β : Type} {r : α → β → Prop} {y : Option β} (h : Option.Rel r (some a) y) :
    ∃ b, y = some b ∧ r a b := by
  cases h with
  | some hab => exact ⟨_, rfl, hab⟩

theorem exists_of_rel_some {β : Type} {r : α → β → Prop} {x : Option α} {b : β}
    (h : Option.Rel r x (some b)) : ∃ a, x = some a ∧ r a b := by
  cases h with
  | some hab => exact ⟨_, rfl, hab⟩

theorem eq_of_rel_eq {x y : Option α} (h : Option.Rel (fun a b => b = a) x y) : y = x := by
  cases h with
  | some hab => exact congrArg some hab
  | none => rfl

/-- What is made of things that are related is related if what is made of each is. -/
theorem rel_of_rel {β γ δ : Type} {r : α → β → Prop} {made : α → γ → Prop} {made' : β → δ → Prop}
    {r' : γ → δ → Prop} {x : Option α} {y : Option β} {c : Option γ} {d : Option δ}
    (h : Option.Rel r x y) (hc : Option.Rel made x c) (hd : Option.Rel made' y d)
    (hone : ∀ a b c d, x = some a → y = some b → r a b → made a c → made' b d → r' c d) :
    Option.Rel r' c d := by
  cases h with
  | none =>
    cases hc
    cases hd
    exact .none
  | some hab =>
    obtain ⟨c, rfl, hac⟩ := exists_of_some_rel hc
    obtain ⟨d, rfl, hbd⟩ := exists_of_some_rel hd
    exact .some (hone _ _ c d rfl rfl hab hac hbd)

/-- Lists with the same names have, place by place, related things under them. -/
theorem rel_lookup_of_forall₂ {β : Type} {r : String → α → β → Prop} {results : List (String × β)}
    (h : List.Forall₂ (fun x y => y.1 = x.1 ∧ r x.1 x.2 y.2) entries results) (name : String) :
    Option.Rel (r name) (entries.lookup name) (results.lookup name) := by
  induction h with
  | nil => exact .none
  | @cons x y _ _ hfirst _ ih =>
    rw [List.lookup_cons, List.lookup_cons, hfirst.1]
    cases hname : name == x.1 with
    | true =>
      rw [eq_of_beq hname]
      exact .some hfirst.2
    | false => exact ih

/-! ## Entries that are read one by one -/

/-- The entries have the names of what they were read from, in the same order. -/
def ReadFrom {ε β : Type} (f : String → α → Except ε β) (entries : List (String × α))
    (results : List (String × β)) : Prop :=
  List.Forall₂ (fun x y => y.1 = x.1 ∧ f x.1 x.2 = .ok y.2) entries results

variable {ε β : Type} {f : String → α → Except ε β} {results : List (String × β)} {b : β}

/-- Reading the entries succeeds if and only if it does for each. -/
theorem mapM_eq_ok_iff_readFrom :
    (entries.mapM fun x => do return (x.1, ← f x.1 x.2)) = .ok results ↔
      ReadFrom f entries results := by
  have hone : ∀ (x : String × α) (y : String × β),
      (do return (x.1, ← f x.1 x.2) : Except ε (String × β)) = .ok y ↔
        y.1 = x.1 ∧ f x.1 x.2 = .ok y.2 := by
    intro x y
    rw [bind_eq_ok_iff]
    constructor
    · rintro ⟨b, hb, hpair⟩
      obtain rfl := Except.ok.inj hpair
      exact ⟨rfl, hb⟩
    · rintro ⟨hname, hb⟩
      exact ⟨y.2, hb, congrArg Except.ok (Prod.ext hname.symm rfl)⟩
  simp only [mapM_eq_ok_iff, hone, ReadFrom]

theorem ReadFrom.names_eq (h : ReadFrom f entries results) :
    results.map (·.1) = entries.map (·.1) := by
  induction h with
  | nil => rfl
  | cons hfirst _ ih => rw [List.map_cons, List.map_cons, hfirst.1, ih]

/-- What is found under a name was read from what is found under it. -/
theorem ReadFrom.rel_lookup (h : ReadFrom f entries results) (name : String) :
    Option.Rel (fun a b => f name a = .ok b) (entries.lookup name) (results.lookup name) :=
  rel_lookup_of_forall₂ (r := fun name a b => f name a = .ok b) h name

/-- Something is read from the entries if and only if it is from each. -/
theorem exists_readFrom_iff :
    (∃ results, ReadFrom f entries results) ↔ ∀ e ∈ entries, ∃ b, f e.1 e.2 = .ok b := by
  simp only [← mapM_eq_ok_iff_readFrom, exists_mapM_eq_ok_iff]
  refine forall₂_congr fun e _ => ?_
  constructor
  · rintro ⟨y, hy⟩
    obtain ⟨b, hb, -⟩ := bind_eq_ok_iff.mp hy
    exact ⟨b, hb⟩
  · rintro ⟨b, hb⟩
    exact ⟨(e.1, b), bind_eq_ok_iff.mpr ⟨b, hb, rfl⟩⟩

end DaemonKeeper
