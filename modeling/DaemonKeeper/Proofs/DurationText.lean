import DaemonKeeper.Duration
import DaemonKeeper.Proofs.Trimming
import Mathlib.Data.List.TakeWhile
set_option autoImplicit false

/-!
# Which texts are durations (SPEC §4.1)

A duration is written as digits and a unit, with white space between them and around the whole if
one likes, and the unit in small or capital letters.  Reading accepts exactly these texts, as long
as the number and the seconds fit in 64 bits, and the span is then exact.

The text is cut in two at the first character that is no digit.  Its position is counted in
characters and used as a position in bytes; this is right because every character before it takes a
single byte, whatever follows.
-/

namespace DaemonKeeper

/-! ## Letters of units -/

namespace Text

/-- The letters of the units. -/
def unitLetters : List Char := ['m', 's', 'h']

/-- The letters of the units, small and capital. -/
def writtenUnitLetters : List Char := ['m', 's', 'h', 'M', 'S', 'H']

/-- A character other than NUL is made from no number but its own. -/
theorem eq_toNat_of_ofNat_eq {n : Nat} {c : Char} (h : Char.ofNat n = c) (hc : c.toNat ≠ 0) :
    n = c.toNat := by
  subst h
  by_cases hvalid : n.isValidChar
  · have hchar : Char.ofNat n = Char.ofNatAux n hvalid := dif_pos hvalid
    rw [hchar]
    rfl
  · have hnul : Char.ofNat n = '\x00' := dif_neg hvalid
    rw [hnul] at hc
    exact absurd rfl hc

/-- No capital but their own becomes a letter of a unit. -/
theorem mem_writtenUnitLetters_of_lowerChar {c : Char} (h : lowerChar c ∈ unitLetters) :
    c ∈ writtenUnitLetters := by
  -- In every block the partner of such a letter would be at the code point of its own capital.
  have hblocks : caseBlocks.all (fun b => unitLetters.all fun letter =>
      let code := ((letter.toNat : Int) - b.shift).toNat
      !b.holds code || writtenUnitLetters.contains (Char.ofNat code)) = true := by
    decide +kernel
  have hnonzero : unitLetters.all (·.toNat != 0) = true := rfl
  unfold lowerChar at h
  split at h
  · rename_i b hfind
    have hne := List.all_eq_true.mp hnonzero _ h
    have hpositive : (Char.ofNat (c.toNat + b.shift).toNat).toNat ≠ 0 := by simpa using hne
    have hown := eq_toNat_of_ofNat_eq rfl hpositive
    have hcode : (((Char.ofNat (c.toNat + b.shift).toNat).toNat : Int) - b.shift).toNat =
        c.toNat := by
      omega
    have hholds : b.holds c.toNat = true := by simpa using List.find?_some hfind
    have hletter := List.all_eq_true.mp
      (List.all_eq_true.mp hblocks b (List.mem_of_find?_eq_some hfind)) _ h
    simpa only [hcode, Char.ofNat_toNat, hholds, Bool.not_true, Bool.false_or,
      List.contains_iff_mem] using hletter
  · exact List.mem_append_left ['M', 'S', 'H'] h

/-- A text that is made of letters of units once it is in lower case was made of them before. -/
theorem mem_writtenUnitLetters_of_lowerFrom {before cs : List Char}
    (h : ∀ c ∈ lowerFrom before cs, c ∈ unitLetters) : ∀ c ∈ cs, c ∈ writtenUnitLetters := by
  induction cs generalizing before with
  | nil => nofun
  | cons c rest ih =>
    rw [lowerFrom, List.forall_mem_append] at h
    obtain ⟨himage, hrest⟩ := h
    refine List.forall_mem_cons.mpr ⟨?_, ih hrest⟩
    split at himage
    · exact absurd (himage 'i' List.mem_cons_self) (by decide)
    · split at himage
      · -- Neither form of the small sigma is a letter of a unit.
        have hsigma := himage _ List.mem_cons_self
        split at hsigma <;> exact absurd hsigma (by decide)
      · exact mem_writtenUnitLetters_of_lowerChar (himage _ List.mem_cons_self)

/-- These letters are neither white space nor digits. -/
theorem not_isBlank_of_mem_writtenUnitLetters {c : Char} (h : c ∈ writtenUnitLetters) :
    isBlank c = false ∧ c.isDigit = false := by
  have hall : writtenUnitLetters.all (fun letter => !isBlank letter && !letter.isDigit) = true := rfl
  simpa using List.all_eq_true.mp hall c h

/-! ## Digits -/

/-- White space is no digit. -/
theorem not_isDigit_of_isBlank {c : Char} (h : isBlank c = true) : c.isDigit = false := by
  rw [Bool.eq_false_iff]
  intro hdigit
  obtain ⟨hlow, hhigh⟩ := Char.isDigit_iff_toNat.mp hdigit
  have hzero : '0'.toNat = 48 := rfl
  have hnine : '9'.toNat = 57 := rfl
  simp only [isBlank, Bool.or_eq_true, Bool.and_eq_true, decide_eq_true_eq, beq_iff_eq] at h
  omega

/-! ## Positions in bytes -/

/-- The text before a position counted in bytes and the text from there on, if a character begins or
the text ends at this position. -/
def splitAtByte? (text : String) (n : Nat) : Option (String × String) :=
  if h : (⟨n⟩ : String.Pos.Raw).IsValid text then
    some ((text.sliceTo (text.pos ⟨n⟩ h)).copy, (text.sliceFrom (text.pos ⟨n⟩ h)).copy)
  else none

/-- A text is taken apart where its front ends. -/
theorem splitAtByte?_append (front back : String) :
    splitAtByte? (front ++ back) front.utf8ByteSize = some (front, back) := by
  have hvalid : (⟨front.utf8ByteSize⟩ : String.Pos.Raw).IsValid (front ++ back) :=
    String.Pos.Raw.isValid_iff_exists_append.mpr ⟨front, back, rfl, rfl⟩
  have hsplits : ((front ++ back).pos ⟨front.utf8ByteSize⟩ hvalid).Splits front back := ⟨rfl, rfl⟩
  obtain ⟨hfront, hback⟩ := (String.Pos.splits _).eq hsplits
  rw [splitAtByte?, dif_pos hvalid, hfront, hback]

theorem utf8ByteSize_ofList_cons (c : Char) (rest : List Char) :
    (String.ofList (c :: rest)).utf8ByteSize = c.utf8Size + (String.ofList rest).utf8ByteSize := by
  have hsplit : String.ofList (c :: rest) = String.singleton c ++ String.ofList rest := by
    rw [String.singleton_eq_ofList, ← String.ofList_append]
    rfl
  rw [hsplit, String.utf8ByteSize_append, String.utf8ByteSize_singleton]

/-- Digits take a byte each. -/
theorem utf8ByteSize_of_isDigit {digits : List Char} (h : ∀ c ∈ digits, c.isDigit = true) :
    (String.ofList digits).utf8ByteSize = digits.length := by
  induction digits with
  | nil => rfl
  | cons c rest ih =>
    obtain ⟨hc, hrest⟩ := List.forall_mem_cons.mp h
    have hsize : c.utf8Size = 1 := by
      obtain ⟨-, hhigh⟩ := Char.isDigit_iff_toNat.mp hc
      exact Char.utf8Size_eq_one_iff.mpr (UInt32.le_iff_toNat_le.mpr (hhigh.trans (by decide)))
    rw [utf8ByteSize_ofList_cons, hsize, ih hrest, List.length_cons, Nat.add_comm]

/-- As many bytes into a text as it has digits in front, a character begins or the text ends. -/
theorem splitAtByte?_length_takeWhile (text : String) :
    splitAtByte? text (text.toList.takeWhile Char.isDigit).length =
      some (String.ofList (text.toList.takeWhile Char.isDigit),
        String.ofList (text.toList.dropWhile Char.isDigit)) := by
  have htext : text = String.ofList (text.toList.takeWhile Char.isDigit) ++
      String.ofList (text.toList.dropWhile Char.isDigit) := by
    rw [← String.ofList_append, List.takeWhile_append_dropWhile, String.ofList_toList]
  have hbytes : (String.ofList (text.toList.takeWhile Char.isDigit)).utf8ByteSize =
      (text.toList.takeWhile Char.isDigit).length :=
    utf8ByteSize_of_isDigit fun c hc => List.mem_takeWhile_imp hc
  have happend := splitAtByte?_append (String.ofList (text.toList.takeWhile Char.isDigit))
    (String.ofList (text.toList.dropWhile Char.isDigit))
  rwa [← htext, hbytes] at happend

/-- The first character that is no digit, if there is one, comes after the digits in front. -/
theorem findIdx?_not_isDigit (cs : List Char) :
    cs.findIdx? (!·.isDigit) =
      if cs.dropWhile Char.isDigit = [] then none else some (cs.takeWhile Char.isDigit).length := by
  split
  · rename_i hnil
    rw [List.findIdx?_eq_none_iff]
    intro c hc
    simpa using List.dropWhile_eq_nil_iff.mp hnil c hc
  · rename_i hne
    rw [List.dropWhile_eq_drop_findIdx_not, List.drop_eq_nil_iff, Nat.not_le] at hne
    rw [List.findIdx?_eq_some_iff_findIdx_eq, List.takeWhile_eq_take_findIdx_not, List.length_take,
      Nat.min_eq_left hne.le]
    exact ⟨hne, rfl⟩

end Text

/-! ## Written form -/

namespace Duration

variable {s : String} {d : Duration} {cs : List Char}

/-- A text writes a number and a unit: digits, white space and letters, with nothing but white space
around them.  The unit is told in lower case. -/
def Writes (s : String) (value : Nat) (unit : String) : Prop :=
  ∃ text digits gap letters, Text.Padded s text ∧ text.toList = digits ++ (gap ++ letters) ∧
    digits ≠ [] ∧ (∀ c ∈ digits, c.isDigit = true) ∧ (∀ c ∈ gap, Text.isBlank c = true) ∧
    Nat.ofDigitChars 10 digits 0 = value ∧ Text.toLower (String.ofList letters) = unit

/-- The span that a number and a unit stand for, if the number and the seconds fit in 64 bits. -/
inductive Spans : Nat → String → Duration → Prop where
  | milliseconds {value : Nat} : value < Word.bound64 → Spans value "ms" (ofMillis value)
  | seconds {value : Nat} : value < Word.bound64 → Spans value "s" (ofSeconds value)
  | minutes {value : Nat} : value < Word.bound64 → value * 60 < Word.bound64 →
    Spans value "m" (ofSeconds (60 * value))
  | hours {value : Nat} : value < Word.bound64 → value * 3600 < Word.bound64 →
    Spans value "h" (ofSeconds (3600 * value))

theorem bound_eq : bound = Word.bound64 := rfl

theorem scaled_eq_ok_iff {text : String} {value seconds : Nat} :
    scaled text value seconds = .ok d ↔
      value * seconds < Word.bound64 ∧ d = ofSeconds (seconds * value) := by
  unfold scaled
  split
  · rename_i hfits
    rw [bound_eq] at hfits
    rw [Except.ok.injEq, Nat.mul_comm seconds value]
    exact ⟨fun h => ⟨hfits, h.symm⟩, fun h => h.2.symm⟩
  · rename_i hlarge
    rw [bound_eq] at hlarge
    exact iff_of_false nofun fun h => hlarge h.1

/-- A number that fits is read in its unit as the span that it stands for, if that fits. -/
theorem ofUnit_eq_ok_iff {text unit : String} {value : Nat} (hvalue : value < Word.bound64) :
    ofUnit text value unit = .ok d ↔ Spans value unit d := by
  unfold ofUnit
  constructor
  · intro h
    split at h
    · rename_i hunit
      cases h
      exact hunit ▸ .milliseconds hvalue
    split at h
    · rename_i hunit
      obtain ⟨-, rfl⟩ := scaled_eq_ok_iff.mp h
      rw [Nat.one_mul]
      exact hunit ▸ .seconds hvalue
    split at h
    · rename_i hunit
      obtain ⟨hfits, rfl⟩ := scaled_eq_ok_iff.mp h
      exact hunit ▸ .minutes hvalue hfits
    split at h
    · rename_i hunit
      obtain ⟨hfits, rfl⟩ := scaled_eq_ok_iff.mp h
      exact hunit ▸ .hours hvalue hfits
    · cases h
  · intro h
    cases h with
    | milliseconds _ => rfl
    | seconds hfits =>
      exact scaled_eq_ok_iff.mpr ⟨by rwa [Nat.mul_one], by rw [Nat.one_mul]⟩
    | minutes _ hfits => exact scaled_eq_ok_iff.mpr ⟨hfits, rfl⟩
    | hours _ hfits => exact scaled_eq_ok_iff.mpr ⟨hfits, rfl⟩

/-- The unit of a span is made of letters of units. -/
theorem Spans.mem_unitLetters {value : Nat} {unit : String} (h : Spans value unit d) :
    unit.toList ≠ [] ∧ ∀ c ∈ unit.toList, c ∈ Text.unitLetters := by
  cases h <;> simp [Text.unitLetters]

theorem Spans.value_lt {value : Nat} {unit : String} (h : Spans value unit d) :
    value < Word.bound64 := by
  cases h <;> assumption

/-- A text that begins with digits, and what follows them, is taken apart there. -/
theorem span_isDigit {digits rest : List Char} (hdigits : ∀ c ∈ digits, c.isDigit = true)
    (hrest : ∀ c, rest.head? = some c → c.isDigit = false) :
    (digits ++ rest).takeWhile Char.isDigit = digits ∧
      (digits ++ rest).dropWhile Char.isDigit = rest := by
  rw [List.takeWhile_append_of_pos (p := Char.isDigit) hdigits,
    List.dropWhile_append_of_pos (p := Char.isDigit) hdigits]
  cases rest with
  | nil => exact ⟨List.append_nil digits, rfl⟩
  | cons c rest =>
    have hc : ¬ c.isDigit = true := by
      rw [hrest c rfl]
      nofun
    rw [List.takeWhile_cons_of_neg hc, List.dropWhile_cons_of_neg hc]
    exact ⟨List.append_nil digits, rfl⟩

/-- Reading a trimmed text succeeds if it begins with digits, and what follows them is a unit. -/
theorem parseTrimmed_eq_ok_iff : parseTrimmed cs = .ok d ↔
    cs.takeWhile Char.isDigit ≠ [] ∧ cs.dropWhile Char.isDigit ≠ [] ∧
      Spans (Nat.ofDigitChars 10 (cs.takeWhile Char.isDigit) 0)
        (Text.toLower (String.ofList (Text.trimChars (cs.dropWhile Char.isDigit)))) d := by
  unfold parseTrimmed
  simp only [List.isEmpty_iff]
  constructor
  · intro h
    split at h
    · cases h
    split at h
    · cases h
    rename_i hunit
    split at h
    · cases h
    rename_i hdigits
    split at h
    · rename_i hvalue
      rw [bound_eq] at hvalue
      exact ⟨hdigits, hunit, (ofUnit_eq_ok_iff hvalue).mp h⟩
    · cases h
  · rintro ⟨hdigits, hunit, hspans⟩
    have hne : cs ≠ [] := by
      rintro rfl
      exact hdigits rfl
    have hvalue : Nat.ofDigitChars 10 (cs.takeWhile Char.isDigit) 0 < bound := by
      rw [bound_eq]
      exact hspans.value_lt
    rw [if_neg hne, if_neg hunit, if_neg hdigits, if_pos hvalue]
    exact (ofUnit_eq_ok_iff hspans.value_lt).mpr hspans

theorem toList_toLower (letters : List Char) :
    (Text.toLower (String.ofList letters)).toList = Text.lowerFrom [] letters := by
  rw [Text.toLower, String.toList_ofList, String.toList_ofList]

/-- The letters of a unit, as they are written. -/
theorem Spans.written {value : Nat} {letters : List Char}
    (h : Spans value (Text.toLower (String.ofList letters)) d) :
    letters ≠ [] ∧ ∀ c ∈ letters, c ∈ Text.writtenUnitLetters := by
  obtain ⟨hne, hunit⟩ := h.mem_unitLetters
  rw [toList_toLower] at hne hunit
  refine ⟨?_, Text.mem_writtenUnitLetters_of_lowerFrom hunit⟩
  rintro rfl
  exact hne rfl

/-- A text writes the digits in front and the unit that it is cut into. -/
theorem writes_cut (hdigits : (Text.trim s).toList.takeWhile Char.isDigit ≠ [])
    (hunit : (Text.trim s).toList.dropWhile Char.isDigit ≠ []) :
    Writes s (Nat.ofDigitChars 10 ((Text.trim s).toList.takeWhile Char.isDigit) 0)
      (Text.toLower (String.ofList
        (Text.trimChars ((Text.trim s).toList.dropWhile Char.isDigit)))) := by
  have hsplit := List.takeWhile_append_dropWhile (p := Char.isDigit) (l := (Text.trim s).toList)
  have hall : ∀ c ∈ (Text.trim s).toList.takeWhile Char.isDigit, c.isDigit = true :=
    fun c hc => List.mem_takeWhile_imp hc
  generalize (Text.trim s).toList.takeWhile Char.isDigit = digits at *
  generalize (Text.trim s).toList.dropWhile Char.isDigit = rest at *
  -- The unit ends where the text ends, so only white space in front of it is trimmed.
  have hlast : ∀ c, rest.getLast? = some c → Text.isBlank c = false := by
    intro c hc
    refine (Text.padded_trim s).last c ?_
    rw [← hsplit, List.getLast?_append_of_ne_nil _ hunit]
    exact hc
  have hgap : rest = rest.takeWhile Text.isBlank ++ Text.trimChars rest := by
    rw [Text.trimChars_of_getLast? hlast, List.takeWhile_append_dropWhile]
  refine ⟨Text.trim s, digits, rest.takeWhile Text.isBlank, Text.trimChars rest,
    Text.padded_trim s, ?_, hdigits, hall, fun c hc => List.mem_takeWhile_imp hc, ?_, rfl⟩
  · rw [← hgap, hsplit]
  · rfl

/-- A text that writes a number and a unit with a span is cut into them. -/
theorem cut_of_writes {value : Nat} {unit : String} (h : Writes s value unit)
    (hspans : Spans value unit d) :
    (Text.trim s).toList.takeWhile Char.isDigit ≠ [] ∧
      (Text.trim s).toList.dropWhile Char.isDigit ≠ [] ∧
      Nat.ofDigitChars 10 ((Text.trim s).toList.takeWhile Char.isDigit) 0 = value ∧
      Text.toLower (String.ofList
        (Text.trimChars ((Text.trim s).toList.dropWhile Char.isDigit))) = unit := by
  obtain ⟨text, digits, gap, letters, hpadded, htext, hne, hdigits, hgap, rfl, rfl⟩ := h
  obtain ⟨hletters, hwritten⟩ := hspans.written
  have hhead : ∀ c, letters.head? = some c → Text.isBlank c = false := fun c hc =>
    (Text.not_isBlank_of_mem_writtenUnitLetters (hwritten c (List.mem_of_head? hc))).1
  have hlast : ∀ c, (gap ++ letters).getLast? = some c → Text.isBlank c = false := by
    intro c hc
    rw [List.getLast?_append_of_ne_nil _ hletters] at hc
    exact (Text.not_isBlank_of_mem_writtenUnitLetters (hwritten c (List.mem_of_getLast? hc))).1
  have hrest : ∀ c, (gap ++ letters).head? = some c → c.isDigit = false := by
    intro c hc
    rcases List.mem_append.mp (List.mem_of_head? hc) with hblank | hletter
    · exact Text.not_isDigit_of_isBlank (hgap c hblank)
    · exact (Text.not_isBlank_of_mem_writtenUnitLetters (hwritten c hletter)).2
  obtain ⟨htake, hdrop⟩ := span_isDigit hdigits hrest
  have hunit : gap ++ letters ≠ [] := List.append_ne_nil_of_right_ne_nil gap hletters
  have htrimmed : Text.trimChars (gap ++ letters) = letters := by
    rw [Text.trimChars_of_getLast? hlast, Text.dropWhile_blank_append hgap hhead]
  rw [hpadded.trim_eq, htext, htake, hdrop, htrimmed]
  exact ⟨hne, hunit, rfl, rfl⟩

/-- A duration is read from a text if and only if the text writes a number and a unit, and they
stand for this duration. -/
theorem parse_eq_ok_iff :
    parse s = .ok d ↔ ∃ value unit, Writes s value unit ∧ Spans value unit d := by
  unfold parse
  rw [parseTrimmed_eq_ok_iff, ← Text.toList_trim]
  constructor
  · rintro ⟨hdigits, hunit, hspans⟩
    exact ⟨_, _, writes_cut hdigits hunit, hspans⟩
  · rintro ⟨value, unit, hwrites, hspans⟩
    obtain ⟨hdigits, hunit, rfl, rfl⟩ := cut_of_writes hwrites hspans
    exact ⟨hdigits, hunit, hspans⟩

/-- No span of whole units has more seconds than fit in 64 bits. -/
theorem Spans.seconds_lt {value : Nat} {unit : String} (h : Spans value unit d) :
    d.seconds < Word.bound64 := by
  have hwhole (n : Nat) : (ofSeconds n).seconds = n := Nat.mul_div_cancel n (by decide)
  cases h with
  | milliseconds hvalue =>
    exact lt_of_le_of_lt (Nat.div_le_of_le_mul (by dsimp only [ofMillis]; omega)) hvalue
  | seconds hvalue => rwa [hwhole]
  | minutes _ hfits => rwa [hwhole, Nat.mul_comm]
  | hours _ hfits => rwa [hwhole, Nat.mul_comm]

/-! ## The place of the cut -/

/-- Reads a duration as `parse` does, but takes the text apart at a position in bytes, the number of
characters in front of the first that is no digit.  There is no outcome if this position is inside a
character. -/
def parseAtByte? (s : String) : Option (Except Fault Duration) :=
  let text := Text.trim s
  if text = "" then some (.error .blank)
  else match text.toList.findIdx? (!·.isDigit) with
    | none => some (.error .noUnit)
    | some index => (Text.splitAtByte? text index).map fun (number, rest) =>
      let value := Nat.ofDigitChars 10 number.toList 0
      if number = "" then .error .noDigits
      else if value < bound then ofUnit text value (Text.toLower (Text.trim rest))
      else .error (.numberTooLarge number)

/-- The position is never inside a character, and the outcome is the same. -/
theorem parseAtByte?_eq (s : String) : parseAtByte? s = some (parse s) := by
  unfold parseAtByte? parse parseTrimmed
  rw [← Text.toList_trim]
  generalize Text.trim s = text
  simp only [Text.findIdx?_not_isDigit, List.isEmpty_iff, String.toList_eq_nil_iff]
  split
  · rfl
  by_cases hrest : text.toList.dropWhile Char.isDigit = []
  · rw [if_pos hrest, if_pos hrest]
  · rw [if_neg hrest, if_neg hrest]
    simp only [Text.splitAtByte?_length_takeWhile, Option.map_some, String.ofList_eq_empty_iff,
      String.toList_ofList, String.ofList_toList, Text.trim]

/-- A text is read as a duration if and only if it writes a number and a unit, and they stand for
this duration, exactly; any other text is refused.  The seconds of a duration that is read fit in 64
bits, and no text is cut inside a character. -/
theorem parse_accepts_exactly_written (s : String) :
    (∀ d, parse s = .ok d ↔ ∃ value unit, Writes s value unit ∧ Spans value unit d) ∧
      ((∃ fault, parse s = .error fault) ↔
        ¬ ∃ value unit d, Writes s value unit ∧ Spans value unit d) ∧
      (∀ d, parse s = .ok d → d.seconds < Word.bound64) ∧
      parseAtByte? s = some (parse s) := by
  refine ⟨fun d => parse_eq_ok_iff, ?_, fun d h => ?_, parseAtByte?_eq s⟩
  · constructor
    · rintro ⟨fault, herror⟩ ⟨value, unit, d, hread⟩
      have hok := parse_eq_ok_iff.mpr ⟨value, unit, hread⟩
      rw [herror] at hok
      cases hok
    · intro hnone
      cases hparse : parse s with
      | error fault => exact ⟨fault, rfl⟩
      | ok d =>
        obtain ⟨value, unit, hread⟩ := parse_eq_ok_iff.mp hparse
        exact absurd ⟨value, unit, d, hread⟩ hnone
  · obtain ⟨value, unit, -, hspans⟩ := parse_eq_ok_iff.mp h
    exact hspans.seconds_lt

/-- White space around and a capital letter do not matter. -/
theorem parse_accepts_exactly_written_capital :
    parse "\u2003 90 M\n" = .ok (ofSeconds 5400) ∧ (ofSeconds 5400).seconds < Word.bound64 := by
  have hpadded : Text.Padded "\u2003 90 M\n" "90 M" :=
    .of_all ['\u2003', ' '] ['\n'] rfl rfl rfl rfl rfl
  have hwrites : Writes "\u2003 90 M\n" 90 "m" :=
    ⟨"90 M", ['9', '0'], [' '], ['M'], hpadded, rfl, List.cons_ne_nil _ _, by simp,
      List.forall_mem_singleton.mpr rfl, rfl, by decide +kernel⟩
  have hread := ((parse_accepts_exactly_written "\u2003 90 M\n").1 (ofSeconds 5400)).mpr
    ⟨90, "m", hwrites, .minutes (by decide) (by decide)⟩
  exact ⟨hread, (parse_accepts_exactly_written "\u2003 90 M\n").2.2.1 _ hread⟩

end Duration

end DaemonKeeper
