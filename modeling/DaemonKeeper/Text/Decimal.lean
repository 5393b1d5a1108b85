set_option autoImplicit false

/-!
# Text: runs of decimal digits

Only the ten ASCII digits count.
-/

namespace DaemonKeeper.Text

/-- Pads with zeros on the left up to a width. -/
def padZeros (width : Nat) (s : String) : String :=
  String.ofList (List.replicate (width - s.length) '0') ++ s

/-- The number that digits after some zeros write. -/
theorem ofDigitChars_padZeros (width n : Nat) :
    Nat.ofDigitChars 10 (padZeros width (toString n)).toList 0 = n := by
  rw [padZeros, String.toList_append, String.toList_ofList, Nat.ofDigitChars_append,
    Nat.ofDigitChars_replicate_zero, Nat.mul_zero, Nat.toString_eq_repr, Nat.toList_repr]
  exact Nat.ofDigitChars_toDigits (by decide) (by decide)

theorem isDigit_of_mem_padZeros {width n : Nat} {c : Char}
    (h : c ∈ (padZeros width (toString n)).toList) : c.isDigit := by
  rw [padZeros, String.toList_append, String.toList_ofList, Nat.toString_eq_repr,
    Nat.toList_repr] at h
  rcases List.mem_append.mp h with hzero | hdigit
  · rw [List.eq_of_mem_replicate hzero]
    rfl
  · exact Nat.isDigit_of_mem_toDigits (by decide) (by decide) hdigit

theorem padZeros_ne_nil (width n : Nat) : (padZeros width (toString n)).toList ≠ [] := by
  simp [padZeros, Nat.toString_eq_repr]

/-- A non-empty run of digits after an optional plus sign, below a bound. -/
def readBelow? (bound : Nat) (cs : List Char) : Option Nat :=
  let digits := match cs with
    | '+' :: rest => rest
    | _ => cs
  if digits.isEmpty || !digits.all Char.isDigit then none
  else if Nat.ofDigitChars 10 digits 0 < bound then some (Nat.ofDigitChars 10 digits 0) else none

/-- Digits are read as the number that they write, with or without the sign. -/
theorem readBelow?_eq_some {bound : Nat} {digits cs : List Char}
    (hcs : cs = digits ∨ cs = '+' :: digits) (hne : digits ≠ [])
    (hdigits : ∀ c ∈ digits, c.isDigit = true) (hbound : Nat.ofDigitChars 10 digits 0 < bound) :
    readBelow? bound cs = some (Nat.ofDigitChars 10 digits 0) := by
  unfold readBelow?
  extract_lets unsigned
  have hunsigned : unsigned = digits := by
    unfold unsigned
    rcases hcs with rfl | rfl
    · split
      · exact absurd (hdigits '+' List.mem_cons_self) (by decide)
      · rfl
    · rfl
  rw [hunsigned, List.all_eq_true.mpr hdigits, if_neg (by simp [hne]), if_pos hbound]

end DaemonKeeper.Text
