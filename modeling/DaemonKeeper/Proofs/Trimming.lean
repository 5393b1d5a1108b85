import DaemonKeeper.Text.Blank
import Mathlib.Data.List.Basic
import Mathlib.Data.List.TakeWhile
set_option autoImplicit false

/-!
# What trimming leaves

Trimming takes off white space and leaves a text that neither begins nor ends with any.  That is all
there is to say about it: nothing else can be left of the line.
-/

namespace DaemonKeeper.Text

variable {cs : List Char} {line text : String}

theorem toList_trim (s : String) : (trim s).toList = trimChars s.toList := by
  rw [trim, String.toList_ofList]

theorem trimChars_eq_nil_iff : trimChars cs = [] ↔ ∀ c ∈ cs, isBlank c = true := by
  unfold trimChars trimRight
  rw [List.reverse_eq_nil_iff, List.dropWhile_eq_nil_iff]
  simp only [List.mem_reverse]
  constructor
  · intro h c hc
    rw [← List.takeWhile_append_dropWhile (p := isBlank) (l := cs)] at hc
    rcases List.mem_append.mp hc with hc | hc
    · exact List.mem_takeWhile_imp hc
    · exact h c hc
  · exact fun h c hc => h c (List.dropWhile_subset _ hc)

/-- A text is blank if and only if trimming leaves nothing of it. -/
theorem isBlankText_iff {s : String} : isBlankText s = true ↔ trim s = "" := by
  unfold isBlankText trim
  rw [List.all_eq_true, ← trimChars_eq_nil_iff]
  simp

/-- The line says the text, with nothing but white space around it. -/
structure Padded (line text : String) : Prop where
  head : ∀ c, text.toList.head? = some c → isBlank c = false
  last : ∀ c, text.toList.getLast? = some c → isBlank c = false
  around : ∃ before after : List Char, (∀ c ∈ before, isBlank c = true) ∧
    (∀ c ∈ after, isBlank c = true) ∧ line.toList = before ++ text.toList ++ after

/-- Whether a line is padded can be computed, given what is around the text. -/
theorem Padded.of_all (before after : List Char)
    (hhead : text.toList.head?.all (!isBlank ·) = true)
    (hlast : text.toList.getLast?.all (!isBlank ·) = true) (hbefore : before.all isBlank = true)
    (hafter : after.all isBlank = true) (hline : line.toList = before ++ text.toList ++ after) :
    Padded line text where
  head c hc := by
    rw [hc] at hhead
    simpa using hhead
  last c hc := by
    rw [hc] at hlast
    simpa using hlast
  around := ⟨before, after, List.all_eq_true.mp hbefore, List.all_eq_true.mp hafter, hline⟩

/-- White space in front is dropped, up to the first character that is none. -/
theorem dropWhile_blank_append {before : List Char} (hbefore : ∀ c ∈ before, isBlank c = true)
    (hhead : ∀ c, cs.head? = some c → isBlank c = false) :
    (before ++ cs).dropWhile isBlank = cs := by
  rw [List.dropWhile_append_of_pos hbefore]
  cases cs with
  | nil => rfl
  | cons c cs =>
    have hc : isBlank c = false := hhead c rfl
    exact List.dropWhile_cons_of_neg (by simp [hc])

/-- White space at the end is dropped, down to the last character that is none. -/
theorem trimRight_append {after : List Char} (hafter : ∀ c ∈ after, isBlank c = true)
    (hlast : ∀ c, cs.getLast? = some c → isBlank c = false) : trimRight (cs ++ after) = cs := by
  have hback : (cs ++ after).reverse.dropWhile isBlank = cs.reverse := by
    rw [List.reverse_append]
    apply dropWhile_blank_append
    · intro c hc
      exact hafter c (List.mem_reverse.mp hc)
    · intro c hc
      rw [List.head?_reverse] at hc
      exact hlast c hc
  rw [trimRight, hback, List.reverse_reverse]

/-- Nothing is dropped from the end of a text that does not end with white space. -/
theorem trimRight_of_getLast? (hlast : ∀ c, cs.getLast? = some c → isBlank c = false) :
    trimRight cs = cs := by
  have hnone : ∀ c ∈ ([] : List Char), isBlank c = true := nofun
  have htrim := trimRight_append hnone hlast
  rwa [List.append_nil] at htrim

/-- Trimming such a text drops what is in front. -/
theorem trimChars_of_getLast? (hlast : ∀ c, cs.getLast? = some c → isBlank c = false) :
    trimChars cs = cs.dropWhile isBlank := by
  refine trimRight_of_getLast? fun c hc => hlast c ?_
  have hne : cs.dropWhile isBlank ≠ [] := by
    intro hnil
    rw [hnil] at hc
    cases hc
  rw [← List.takeWhile_append_dropWhile (p := isBlank) (l := cs),
    List.getLast?_append_of_ne_nil _ hne]
  exact hc

/-- Trimming the line leaves the text. -/
theorem Padded.trim_eq (h : Padded line text) : trim line = text := by
  obtain ⟨before, after, hbefore, hafter, hline⟩ := h.around
  have htrimmed : trimChars line.toList = text.toList := by
    rw [hline, List.append_assoc]
    by_cases hempty : text.toList = []
    · -- An empty text has no first character at which dropping the front would stop.
      rw [hempty, List.nil_append, trimChars_eq_nil_iff]
      intro c hc
      exact (List.mem_append.mp hc).elim (hbefore c) (hafter c)
    · have hfront : (before ++ (text.toList ++ after)).dropWhile isBlank =
          text.toList ++ after := by
        apply dropWhile_blank_append hbefore
        intro c hc
        rw [List.head?_append_of_ne_nil _ hempty] at hc
        exact h.head c hc
      rw [trimChars, hfront, trimRight_append hafter h.last]
  unfold trim
  rw [htrimmed, String.ofList_toList]

/-- The first character that dropping white space leaves is none. -/
theorem isBlank_of_head?_dropWhile {c : Char} (h : (cs.dropWhile isBlank).head? = some c) :
    isBlank c = false := by
  have hall := List.head?_dropWhile_not isBlank cs
  rw [h] at hall
  exact hall

/-- Dropping white space at the end leaves a text that does not end with any. -/
theorem trimRight_spec (cs : List Char) :
    (∃ after : List Char, (∀ c ∈ after, isBlank c = true) ∧ cs = trimRight cs ++ after) ∧
      ∀ c, (trimRight cs).getLast? = some c → isBlank c = false := by
  refine ⟨⟨(cs.reverse.takeWhile isBlank).reverse, fun c hc => ?_, ?_⟩, fun c hc => ?_⟩
  · exact List.mem_takeWhile_imp (List.mem_reverse.mp hc)
  · rw [trimRight, ← List.reverse_append, List.takeWhile_append_dropWhile, List.reverse_reverse]
  · rw [trimRight, List.getLast?_reverse] at hc
    exact isBlank_of_head?_dropWhile hc

/-- What trimming leaves is the text with white space around it in the line. -/
theorem padded_trim (line : String) : Padded line (trim line) := by
  obtain ⟨⟨after, hafter, hback⟩, hlast⟩ := trimRight_spec (line.toList.dropWhile isBlank)
  have htext : (trim line).toList = trimRight (line.toList.dropWhile isBlank) := toList_trim line
  refine ⟨fun c hc => ?_, fun c hc => hlast c (htext ▸ hc), line.toList.takeWhile isBlank, after,
    fun c hc => List.mem_takeWhile_imp hc, hafter, ?_⟩
  · have hne : trimRight (line.toList.dropWhile isBlank) ≠ [] := by
      rintro hnil
      rw [htext, hnil] at hc
      cases hc
    have hhead : (line.toList.dropWhile isBlank).head? = some c := by
      rw [hback, List.head?_append_of_ne_nil _ hne, ← htext]
      exact hc
    exact isBlank_of_head?_dropWhile hhead
  · rw [htext, List.append_assoc, ← hback, List.takeWhile_append_dropWhile]

end DaemonKeeper.Text
