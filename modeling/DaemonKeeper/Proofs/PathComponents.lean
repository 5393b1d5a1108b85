import DaemonKeeper.Path
import Mathlib.Data.List.Basic
set_option autoImplicit false

/-!
# Paths by their components

A path leads from the root, from the current directory, or from wherever it is seen, along its
names.  Paths are compared by these components and not by their text.  Joining puts the names of a
relative right side behind the left one, while an absolute right side takes its place.
-/

namespace DaemonKeeper.Path

variable {p q left : Path} {right : String} {front rest : List Char}

/-- Where a path starts from, if it says so: the root or the current directory. -/
def start (p : Path) : List String :=
  if p.isAbsolute then ["/"]
  else if (Text.pieces '/' p.text.toList).head? = some ['.'] then ["."]
  else []

/-- The components of a path.  Empty names are none, and neither is `.` behind the front; `..` is
one like any other name. -/
def components (p : Path) : List String := p.start ++ p.names

/-- The components of one path come first in another. -/
def BeginsWith (p q : Path) : Prop := q.components <+: p.components

instance : Decidable (p.BeginsWith q) := inferInstanceAs (Decidable (_ <+: _))

theorem BeginsWith.refl (p : Path) : p.BeginsWith p := List.prefix_refl _

theorem BeginsWith.trans {r : Path} (h : p.BeginsWith q) (h' : q.BeginsWith r) : p.BeginsWith r :=
  List.IsPrefix.trans h' h

/-! ## Joined texts -/

/-- An absolute right side takes the place of the left one. -/
theorem join_of_isAbsolute (h : (Path.mk right).isAbsolute = true) : left.join right = ⟨right⟩ :=
  if_pos h

/-- A relative right side stands behind the left one and a separator, which may be there already.
Only an empty left side is left out. -/
theorem join_of_relative (left : Path) (h : (Path.mk right).isAbsolute = false) :
    left.text = "" ∧ left.join right = ⟨right⟩ ∨
      ∃ front, (front ≠ [] ∧ left.text.toList = front ∨ left.text.toList = front ++ ['/']) ∧
        (left.join right).text.toList = front ++ '/' :: right.toList := by
  unfold join
  rw [h]
  simp only [Bool.false_eq_true, if_false]
  split
  · rename_i hopen
    rw [Bool.or_eq_true, decide_eq_true_eq, String.isEmpty_iff] at hopen
    rcases hopen with hempty | hlast
    · refine .inl ⟨hempty, ?_⟩
      rw [hempty, String.empty_append]
    · obtain ⟨front, hfront⟩ := List.getLast?_eq_some_iff.mp hlast
      refine .inr ⟨front, .inr hfront, ?_⟩
      rw [String.toList_append, hfront, List.append_assoc, List.singleton_append]
  · rename_i hclosed
    rw [Bool.or_eq_true, not_or, String.isEmpty_iff] at hclosed
    refine .inr ⟨left.text.toList, .inl ⟨fun hnil => hclosed.1 ?_, rfl⟩, ?_⟩
    · exact String.toList_inj.mp hnil
    · rw [String.toList_append, String.toList_append, List.append_assoc]
      rfl

/-! ## Components of joined paths -/

/-- The names before a separator come before those behind it. -/
theorem names_of_toList_eq (h : p.text.toList = front ++ '/' :: rest) :
    p.names = (Path.mk (String.ofList front)).names ++ (Path.mk (String.ofList rest)).names := by
  simp only [names, h, String.toList_ofList, Text.pieces_append_separator, List.map_append,
    List.filter_append]

theorem start_congr (hhead : p.text.toList.head? = q.text.toList.head?)
    (hpiece : (Text.pieces '/' p.text.toList).head? = (Text.pieces '/' q.text.toList).head?) :
    p.start = q.start := by
  unfold start isAbsolute
  rw [hhead, hpiece]

/-- The first piece of a text is in front of its first separator. -/
theorem head?_pieces (front rest : List Char) :
    (Text.pieces '/' (front ++ '/' :: rest)).head? = (Text.pieces '/' front).head? := by
  rw [Text.pieces_append_separator, List.head?_append_of_ne_nil _ (Text.pieces_ne_nil _ _)]

/-- The names of a relative right side come behind the components of a left side. -/
theorem components_join (h : (Path.mk right).isAbsolute = false) (hleft : left.text ≠ "") :
    (left.join right).components = left.components ++ (Path.mk right).names := by
  rcases join_of_relative left h with ⟨hempty, -⟩ | ⟨front, hfront, hjoin⟩
  · exact absurd hempty hleft
  have hnames := names_of_toList_eq hjoin
  rw [String.ofList_toList] at hnames
  unfold components
  rw [hnames, List.append_assoc]
  rcases hfront with ⟨hne, hopen⟩ | hclosed
  · have hstart : (left.join right).start = left.start := by
      refine start_congr ?_ ?_
      · rw [hjoin, hopen, List.head?_append_of_ne_nil _ hne]
      · rw [hjoin, hopen, head?_pieces]
    have hself : left.names = (Path.mk (String.ofList front)).names := by
      rw [← hopen, String.ofList_toList]
    rw [hstart, hself]
  · have hstart : (left.join right).start = left.start := by
      refine start_congr ?_ ?_
      · rw [hjoin, hclosed, List.head?_append, List.head?_append]
        rfl
      · rw [hjoin, hclosed, head?_pieces, head?_pieces]
    have hself : left.names = (Path.mk (String.ofList front)).names := by
      rw [names_of_toList_eq hclosed]
      exact List.append_nil _
    rw [hstart, hself]

/-- So the left side stays in front of a relative right side. -/
theorem join_beginsWith (left : Path) (h : (Path.mk right).isAbsolute = false) :
    (left.join right).BeginsWith left := by
  by_cases hleft : left.text = ""
  · have hnone : left.components = [] := by
      obtain ⟨text⟩ := left
      cases hleft
      rfl
    rw [BeginsWith, hnone]
    exact List.nil_prefix
  · rw [BeginsWith, components_join h hleft]
    exact List.prefix_append _ _

/-- An absolute right side begins with the left one only by itself. -/
theorem join_beginsWith_iff :
    (left.join right).BeginsWith left ↔
      (Path.mk right).isAbsolute = false ∨ (Path.mk right).BeginsWith left := by
  cases habsolute : (Path.mk right).isAbsolute with
  | false => simp only [join_beginsWith left habsolute, true_or]
  | true => simp only [join_of_isAbsolute habsolute, Bool.true_eq_false, false_or]

end DaemonKeeper.Path
