import DaemonKeeper.Config.Decode
import DaemonKeeper.Proofs.Entries
import DaemonKeeper.Proofs.Outcome
import Mathlib.Data.List.Induction
set_option autoImplicit false

/-!
# Daemons in the order of their declaration (SPEC §3.5)

Daemons are built and started in the order of their table, so the table must not shuffle them.  A
name stands where it was declared first and stands for what was declared last; declaring it again
moves nothing.  A document whose sections have distinct names is read in its own order.
-/

namespace DaemonKeeper

namespace DaemonTable

variable {t : DaemonTable} {name other : String} {d : DaemonSpec}
variable {declared : List (String × DaemonSpec)}

/-! ## One declaration -/

theorem mem_names_iff : name ∈ t.names ↔ ∃ d, t.get? name = some d := mem_map_fst_iff

theorem get?_eq_none_iff : t.get? name = none ↔ name ∉ t.names := lookup_eq_none_iff_notMem

/-- A new name comes last. -/
theorem insertEntry_of_notMem {entries : List (String × DaemonSpec)}
    (h : name ∉ entries.map (·.1)) (d : DaemonSpec) :
    insertEntry name d entries = entries ++ [(name, d)] := by
  induction entries with
  | nil => rfl
  | cons e rest ih =>
    rw [List.map_cons, List.mem_cons, not_or] at h
    rw [insertEntry, if_neg (Ne.symm h.1), ih h.2, List.cons_append]

theorem insert_of_notMem (h : name ∉ t.names) (d : DaemonSpec) :
    t.insert name d = ⟨t.entries ++ [(name, d)]⟩ := by
  rw [insert, insertEntry_of_notMem h]

theorem names_insert_of_notMem (h : name ∉ t.names) (d : DaemonSpec) :
    (t.insert name d).names = t.names ++ [name] := by
  rw [insert_of_notMem h, names, names, List.map_append, List.map_singleton]

/-- Declaring a name again moves no name. -/
theorem map_fst_insertEntry {entries : List (String × DaemonSpec)} (h : name ∈ entries.map (·.1))
    (d : DaemonSpec) : (insertEntry name d entries).map (·.1) = entries.map (·.1) := by
  induction entries with
  | nil => cases h
  | cons e rest ih =>
    by_cases he : e.1 = name
    · rw [insertEntry, if_pos he, List.map_cons, List.map_cons]
    · have hrest : name ∈ rest.map (·.1) := by simpa [Ne.symm he] using h
      rw [insertEntry, if_neg he, List.map_cons, List.map_cons, ih hrest]

theorem names_insert_of_mem (h : name ∈ t.names) (d : DaemonSpec) :
    (t.insert name d).names = t.names :=
  map_fst_insertEntry h d

/-- Under a name that is declared the new daemon is found, under others what was found before. -/
theorem lookup_insertEntry (name : String) (d : DaemonSpec) (other : String)
    (entries : List (String × DaemonSpec)) :
    (insertEntry name d entries).lookup other =
      if other = name then some d else entries.lookup other := by
  induction entries with
  | nil =>
    rw [insertEntry, List.lookup_cons]
    by_cases hother : other = name
    · simp [hother]
    · simp [hother, beq_eq_false_iff_ne.mpr hother]
  | cons e rest ih =>
    by_cases he : e.1 = name
    · rw [insertEntry, if_pos he, List.lookup_cons, List.lookup_cons, he]
      by_cases hother : other = name
      · simp [hother]
      · simp [hother, beq_eq_false_iff_ne.mpr hother]
    · rw [insertEntry, if_neg he, List.lookup_cons, List.lookup_cons, ih]
      by_cases hother : other = name
      · simp [hother, beq_eq_false_iff_ne.mpr (Ne.symm he)]
      · simp [hother]

theorem get?_insert (t : DaemonTable) (name : String) (d : DaemonSpec) (other : String) :
    (t.insert name d).get? other = if other = name then some d else t.get? other :=
  lookup_insertEntry name d other t.entries

/-! ## Declarations in turn -/

/-- The table that comes of declaring daemons in turn, a name perhaps more than once. -/
def ofList (declared : List (String × DaemonSpec)) : DaemonTable :=
  declared.foldl (fun t e => t.insert e.1 e.2) .empty

theorem ofList_concat (declared : List (String × DaemonSpec)) (e : String × DaemonSpec) :
    ofList (declared ++ [e]) = (ofList declared).insert e.1 e.2 := by
  rw [ofList, List.foldl_append]
  rfl

/-- The table has the names that were declared, each once and where it was declared first, and for
each the daemon that was declared last. -/
structure Reflects (t : DaemonTable) (declared : List (String × DaemonSpec)) : Prop where
  nodup : t.names.Nodup
  mem_iff : ∀ name, name ∈ t.names ↔ name ∈ declared.map (·.1)
  first : t.names.Pairwise fun a b =>
    (declared.map (·.1)).idxOf a < (declared.map (·.1)).idxOf b
  last : ∀ name, t.get? name = declared.reverse.lookup name

theorem reflects_empty : empty.Reflects [] where
  nodup := List.nodup_nil
  mem_iff _ := Iff.rfl
  first := List.Pairwise.nil
  last _ := rfl

/-- One more declaration. -/
theorem Reflects.insert (h : t.Reflects declared) (name : String) (d : DaemonSpec) :
    (t.insert name d).Reflects (declared ++ [(name, d)]) := by
  have hlast : ∀ other,
      (t.insert name d).get? other = (declared ++ [(name, d)]).reverse.lookup other := by
    intro other
    rw [get?_insert, h.last, List.reverse_append, List.reverse_singleton, List.singleton_append,
      List.lookup_cons]
    by_cases hother : other = name
    · simp [hother]
    · simp [hother, beq_eq_false_iff_ne.mpr hother]
  have hkept : t.names.Pairwise fun a b => ((declared ++ [(name, d)]).map (·.1)).idxOf a <
      ((declared ++ [(name, d)]).map (·.1)).idxOf b := by
    refine h.first.imp_of_mem fun {a b} ha hb hless => ?_
    rw [List.map_append, List.idxOf_append_of_mem ((h.mem_iff a).mp ha),
      List.idxOf_append_of_mem ((h.mem_iff b).mp hb)]
    exact hless
  by_cases hname : name ∈ t.names
  · have hnames := names_insert_of_mem hname d
    refine ⟨hnames ▸ h.nodup, fun other => ?_, hnames ▸ hkept, hlast⟩
    rw [hnames, h.mem_iff, List.map_append, List.mem_append]
    refine ⟨.inl, fun hmem => hmem.elim id fun hnew => ?_⟩
    rw [List.mem_singleton.mp hnew]
    exact (h.mem_iff name).mp hname
  · have hnames := names_insert_of_notMem hname d
    have hnew : name ∉ declared.map (·.1) := fun hmem => hname ((h.mem_iff name).mpr hmem)
    refine ⟨?_, fun other => ?_, ?_, hlast⟩
    · rw [hnames, ← List.concat_eq_append, List.nodup_concat]
      exact ⟨hname, h.nodup⟩
    · rw [hnames, List.mem_append, h.mem_iff, List.map_append, List.mem_append]
      rfl
    · rw [hnames]
      refine List.pairwise_append.mpr ⟨hkept, List.pairwise_singleton _ _, fun a ha b hb => ?_⟩
      -- The new name is behind all that were declared before.
      rw [List.mem_singleton.mp hb, List.map_append,
        List.idxOf_append_of_mem ((h.mem_iff a).mp ha), List.idxOf_append_of_notMem hnew]
      exact Nat.lt_add_right _ (List.idxOf_lt_length_iff.mpr ((h.mem_iff a).mp ha))

/-- However often names are declared again. -/
theorem reflects_ofList (declared : List (String × DaemonSpec)) :
    (ofList declared).Reflects declared := by
  induction declared using List.reverseRecOn with
  | nil => exact reflects_empty
  | append_singleton declared e ih =>
    rw [ofList_concat]
    exact ih.insert e.1 e.2

/-- Declared under distinct names, the daemons are the table. -/
theorem ofList_of_nodup (h : (declared.map (·.1)).Nodup) : ofList declared = ⟨declared⟩ := by
  induction declared using List.reverseRecOn with
  | nil => rfl
  | append_singleton declared e ih =>
    rw [List.map_append, List.map_singleton, ← List.concat_eq_append, List.nodup_concat] at h
    rw [ofList_concat, ih h.2]
    exact insert_of_notMem h.1 e.2

/-! ## Views -/

/-- All that can be asked of the table says the same. -/
structure Coherent (t : DaemonTable) : Prop where
  names_eq : t.names = t.entries.map (·.1)
  mem_entries_iff : ∀ name d, (name, d) ∈ t.entries ↔ t.get? name = some d
  get?_eq_none_iff : ∀ name, t.get? name = none ↔ name ∉ t.names
  fetch_eq_ok_iff : ∀ name d, t.fetch name = .ok d ↔ t.get? name = some d
  fetch_eq_error_iff : ∀ name missing,
    t.fetch name = .error missing ↔ name ∉ t.names ∧ missing = ⟨name⟩
  size_eq : t.size = t.names.length
  isEmpty_iff : t.isEmpty = true ↔ t.size = 0

theorem fetch_eq_ok_iff : t.fetch name = .ok d ↔ t.get? name = some d := by
  unfold fetch
  cases t.get? name <;> simp

theorem fetch_eq_error_iff {missing : Missing} :
    t.fetch name = .error missing ↔ name ∉ t.names ∧ missing = ⟨name⟩ := by
  rw [← get?_eq_none_iff]
  unfold fetch
  cases t.get? name <;> simp [eq_comm]

theorem coherent_of_nodup (h : t.names.Nodup) : t.Coherent where
  names_eq := rfl
  mem_entries_iff _ _ := (lookup_eq_some_iff_mem h).symm
  get?_eq_none_iff _ := get?_eq_none_iff
  fetch_eq_ok_iff _ _ := fetch_eq_ok_iff
  fetch_eq_error_iff _ _ := fetch_eq_error_iff
  size_eq := (List.length_map ..).symm
  isEmpty_iff := by rw [isEmpty, size, List.isEmpty_iff_length_eq_zero]

/-- What becomes of an entry if the daemon of a name is declared again: its name stays, and so does
its daemon unless it has that name. -/
def redeclared (name : String) (d : DaemonSpec) (e : String × DaemonSpec) : String × DaemonSpec :=
  (e.1, if e.1 = name then d else e.2)

/-- Entries of other names stay as they are. -/
theorem map_redeclared_of_notMem {entries : List (String × DaemonSpec)}
    (h : name ∉ entries.map (·.1)) (d : DaemonSpec) :
    entries.map (redeclared name d) = entries := by
  refine (List.map_congr_left fun e he => ?_).trans (List.map_id entries)
  have hne : e.1 ≠ name := by
    rintro rfl
    exact h (List.mem_map_of_mem he)
  rw [redeclared, if_neg hne, id_eq]

/-- Where no name is there twice, declaring a name again changes the entry of that name. -/
theorem insertEntry_of_mem {entries : List (String × DaemonSpec)}
    (hnodup : (entries.map (·.1)).Nodup) (h : name ∈ entries.map (·.1)) (d : DaemonSpec) :
    insertEntry name d entries = entries.map (redeclared name d) := by
  induction entries with
  | nil => cases h
  | cons e rest ih =>
    rw [List.map_cons, List.nodup_cons] at hnodup
    by_cases he : e.1 = name
    · rw [he] at hnodup
      rw [insertEntry, if_pos he, List.map_cons, map_redeclared_of_notMem hnodup.1, redeclared,
        if_pos he]
    · have hrest : name ∈ rest.map (·.1) := by simpa [Ne.symm he] using h
      rw [insertEntry, if_neg he, List.map_cons, ih hnodup.2 hrest, redeclared, if_neg he]

/-- So every entry stays at its position. -/
theorem getElem?_insert_of_mem (hnodup : t.names.Nodup) (h : name ∈ t.names) (d : DaemonSpec)
    (i : Nat) : (t.insert name d).entries[i]? = t.entries[i]?.map (redeclared name d) := by
  rw [insert, insertEntry_of_mem hnodup h, List.getElem?_map]

/-- In tables in which the same is found under all names, what stands at positions of one name is
the same. -/
theorem getElem?_entries_eq {t t' : DaemonTable} (h : t.names.Nodup) (h' : t'.names.Nodup)
    (hget : ∀ name, t'.get? name = t.get? name) {i j : Nat} (hname : t'.names[j]? = t.names[i]?) :
    t'.entries[j]? = t.entries[i]? := by
  rw [names, names, List.getElem?_map, List.getElem?_map] at hname
  cases hentry : t.entries[i]? with
  | none =>
    rw [hentry] at hname
    exact Option.map_eq_none_iff.mp hname
  | some e =>
    rw [hentry] at hname
    obtain ⟨e', hentry', heq⟩ := Option.map_eq_some_iff.mp hname
    have hfound : t.get? e.1 = some e.2 :=
      (lookup_eq_some_iff_mem h).mpr (List.mem_of_getElem? hentry)
    have hfound' : t'.get? e'.1 = some e'.2 :=
      (lookup_eq_some_iff_mem h').mpr (List.mem_of_getElem? hentry')
    rw [heq, hget, hfound] at hfound'
    rw [hentry', Prod.ext heq (Option.some.inj hfound').symm]

end DaemonTable

/-! ## Declarations of a document -/

/-- The sections of a document are taken in, read one by one and declared in turn. -/
theorem Config.readDaemons_eq_ok_iff {sections : Toml.Table} {t : DaemonTable} :
    readDaemons (.table sections) = .ok t ↔ takeInEntries true sections = .ok () ∧
      ∃ declared, ReadFrom readDaemon sections declared ∧ t = DaemonTable.ofList declared := by
  have hmap : mapForm .document (.table sections) = .ok sections := rfl
  unfold readDaemons
  simp only [hmap, bind_eq_ok_iff, mapM_eq_ok_iff_readFrom]
  constructor
  · rintro ⟨entries, hentries, _, htaken, declared, hdeclared, h⟩
    obtain rfl := Except.ok.inj hentries
    exact ⟨htaken, declared, hdeclared, (Except.ok.inj h).symm⟩
  · rintro ⟨htaken, declared, hdeclared, rfl⟩
    exact ⟨sections, rfl, (), htaken, declared, hdeclared, rfl⟩

/-- Sections under distinct names are declared in the order of the document. -/
theorem Config.readDaemons_eq_ok_iff_of_nodup {sections : Toml.Table} {t : DaemonTable}
    (h : (sections.map (·.1)).Nodup) :
    readDaemons (.table sections) = .ok t ↔
      takeInEntries true sections = .ok () ∧ ReadFrom readDaemon sections t.entries := by
  rw [readDaemons_eq_ok_iff]
  refine and_congr_right fun _ => ⟨?_, fun hread => ⟨t.entries, hread, ?_⟩⟩
  · rintro ⟨declared, hread, rfl⟩
    have hnodup : (declared.map (·.1)).Nodup := hread.names_eq ▸ h
    rwa [DaemonTable.ofList_of_nodup hnodup]
  · have hnodup : (t.entries.map (·.1)).Nodup := hread.names_eq ▸ h
    rw [DaemonTable.ofList_of_nodup hnodup]

namespace DaemonTable

/-- A table holds what was declared: each name once, where it was declared first, with the daemon
that was declared last, in whatever way the table is asked.  Declaring a name again changes nothing
else.  And the table of a document has the order of the document. -/
theorem declarations_keep_their_order (declared : List (String × DaemonSpec))
    (sections : Toml.Table) :
    (ofList declared).Reflects declared ∧ (ofList declared).Coherent ∧
    (∀ name d, name ∈ declared.map (·.1) →
      ((ofList declared).insert name d).names = (ofList declared).names ∧
      ∀ i : Nat, ((ofList declared).insert name d).entries[i]? =
        (ofList declared).entries[i]?.map (redeclared name d)) ∧
    ((sections.map (·.1)).Nodup → ∀ t,
      (Config.readDaemons (.table sections) = .ok t ↔
        Config.takeInEntries true sections = .ok () ∧
          ReadFrom Config.readDaemon sections t.entries) ∧
      (Config.readDaemons (.table sections) = .ok t → t.names = sections.map (·.1))) := by
  have hreflects := reflects_ofList declared
  refine ⟨hreflects, coherent_of_nodup hreflects.nodup, fun name d hname => ?_, fun h t => ?_⟩
  · have hmem := (hreflects.mem_iff name).mpr hname
    exact ⟨names_insert_of_mem hmem d, getElem?_insert_of_mem hreflects.nodup hmem d⟩
  · have hread := Config.readDaemons_eq_ok_iff_of_nodup (t := t) h
    exact ⟨hread, fun hok => (hread.mp hok).2.names_eq⟩

/-- A daemon of the project `tgt`. -/
def target (arguments : List String) : DaemonSpec :=
  { project := "tgt", executable := ⟨"bin/tgtd"⟩, arguments }

/-- How it is written in a document. -/
def targetSection : Toml.Value :=
  .table [("executable", .text "bin/tgtd"), ("project", .text "tgt")]

/-- The daemon that is declared twice keeps its first place, and has the arguments of the second
declaration. -/
theorem declarations_keep_their_order_twice :
    (ofList [("tgtd", target []), ("stord", target []), ("tgtd", target ["-f"])]).get? "tgtd" =
      some (target ["-f"]) ∧
    ((ofList [("tgtd", target []), ("stord", target []), ("tgtd", target ["-f"])]).insert "tgtd"
      (target ["-d"])).names = ["tgtd", "stord"] ∧
    ∃ t, Config.readDaemons (.table [("tgtd", targetSection), ("stord", targetSection)]) = .ok t ∧
      t.names = ["tgtd", "stord"] := by
  obtain ⟨hreflects, -, hagain, hread⟩ := declarations_keep_their_order
    [("tgtd", target []), ("stord", target []), ("tgtd", target ["-f"])]
    [("tgtd", targetSection), ("stord", targetSection)]
  have hok : Config.readDaemons (.table [("tgtd", targetSection), ("stord", targetSection)]) =
      .ok ⟨[("tgtd", target []), ("stord", target [])]⟩ := rfl
  exact ⟨hreflects.last "tgtd", (hagain "tgtd" (target ["-d"]) (by decide)).1.trans rfl, _, hok,
    (hread (by decide) _).2 hok⟩

end DaemonTable

end DaemonKeeper
