import DaemonKeeper.Calendar
import DaemonKeeper.Proofs.PathComponents
set_option autoImplicit false

/-!
# A build directory name tells the second it was made in (SPEC §2)

Days are told apart by their dates and seconds by the time of day, so a wall clock at a fixed offset
shows different times in different seconds.  The parts of a name after the year have fixed widths
and the year is written with its sign where it has more than four digits, so different times have
different names.  A name holds no separator, so a path that ends in it tells it.
-/

namespace DaemonKeeper

namespace Calendar

/-! ## Days -/

namespace Date

/-- A year has 365 days or one more. -/
theorem yearStart_le (y : Nat) : 365 * y ≤ yearStart y := by
  unfold yearStart
  omega

/-- An era has 97 leap days. -/
theorem yearStart_le_of_le {y : Nat} (h : y ≤ 400) : yearStart y ≤ 365 * y + 97 := by
  unfold yearStart
  omega

theorem yearStart_succ_le (y : Nat) : yearStart (y + 1) ≤ yearStart y + 366 := by
  unfold yearStart
  omega

/-- A day of an era lies in its March-based year. -/
theorem yearOfDay_bounds {day : Nat} (h : day < eraDays) :
    yearStart (yearOfDay day) ≤ day ∧ day < yearStart (yearOfDay day + 1) ∧
      yearOfDay day < 400 := by
  have hq : day / 365 ≤ 400 := by
    unfold eraDays at h
    omega
  unfold yearOfDay
  split
  · rename_i hle
    have hnext := yearStart_le (day / 365 + 1)
    refine ⟨hle, by omega, ?_⟩
    -- The days from 146000 on are divided into year 400, which begins only after the era.
    refine Nat.lt_of_le_of_ne hq fun h400 => ?_
    rw [h400] at hle
    exact absurd (Nat.lt_of_lt_of_le h hle) (Nat.lt_irrefl _)
  · rename_i hgt
    obtain ⟨y, hy⟩ : ∃ y, day / 365 = y + 1 := by
      refine Nat.exists_eq_succ_of_ne_zero fun hzero => hgt ?_
      rw [hzero]
      exact Nat.zero_le day
    have hstart := yearStart_le_of_le (y := y) (by omega)
    rw [hy] at hgt hq ⊢
    rw [Nat.add_sub_cancel]
    exact ⟨by omega, by omega, by omega⟩

/-- A day of a year lies in its month. -/
theorem monthOfDay_bounds (day : Nat) (h : day ≤ 365) :
    monthStart (monthOfDay day) ≤ day ∧ monthOfDay day < 12 := by
  unfold monthOfDay monthStart
  omega

/-- The day of a date, from the March-based parts of the date. -/
theorem toDays_of_parts (era : Int) {y m : Nat} (day : Nat) (hy : y < 400) (hm : m < 12) :
    toDays ⟨if m < 10 then era * 400 + y else era * 400 + y + 1,
        if m < 10 then m + 3 else m - 9, day + 1⟩ =
      era * eraDays + (yearStart y + monthStart m + day : Nat) - epochShift := by
  have hera : (era * 400 + (y : Int)) / 400 = era := by omega
  have hrest : ((era * 400 + (y : Int)) % 400).toNat = y := by omega
  by_cases hlate : m < 10
  · have hmonth : ¬ m + 3 ≤ 2 := by omega
    simp only [toDays, if_pos hlate, if_neg hmonth, hera, hrest]
    rfl
  · have hmonth : m - 9 ≤ 2 := by omega
    have hback : m - 9 + 9 = m := by omega
    simp only [toDays, if_neg hlate, if_pos hmonth, hback, Int.add_sub_cancel, hera, hrest]
    rfl

theorem dayOfEra_lt (days : Int) : ((days + epochShift) % eraDays).toNat < eraDays := by
  have hnonneg := Int.emod_nonneg (days + epochShift) (b := (eraDays : Int)) (by decide)
  have hlt := Int.emod_lt_of_pos (days + epochShift) (b := (eraDays : Int)) (by decide)
  omega

/-- The date of a day tells the day. -/
theorem toDays_ofDays (days : Int) : (ofDays days).toDays = days := by
  have hsplit := Int.ediv_mul_add_emod (days + epochShift) eraDays
  have hnonneg := Int.emod_nonneg (days + epochShift) (b := (eraDays : Int)) (by decide)
  have hday := dayOfEra_lt days
  obtain ⟨hstart, hnext, hyear⟩ := yearOfDay_bounds hday
  have hsucc := yearStart_succ_le (yearOfDay ((days + epochShift) % eraDays).toNat)
  obtain ⟨hmonth, htwelve⟩ := monthOfDay_bounds (((days + epochShift) % eraDays).toNat -
    yearStart (yearOfDay ((days + epochShift) % eraDays).toNat)) (by omega)
  refine (toDays_of_parts ((days + epochShift) / eraDays) _ hyear htwelve).trans ?_
  omega

/-- The months of a date are at most twelve, and the days of a month at most 31. -/
theorem bounds_ofDays (days : Int) : (ofDays days).month ≤ 12 ∧ (ofDays days).day ≤ 31 := by
  obtain ⟨hstart, hnext, -⟩ := yearOfDay_bounds (dayOfEra_lt days)
  have hsucc := yearStart_succ_le (yearOfDay ((days + epochShift) % eraDays).toNat)
  show (if monthOfDay (_ - _) < 10 then monthOfDay (_ - _) + 3 else monthOfDay (_ - _) - 9) ≤ 12 ∧
    _ - _ - monthStart (monthOfDay (_ - _)) + 1 ≤ 31
  generalize hday : ((days + epochShift) % eraDays).toNat - yearStart _ = day
  have hyear : day ≤ 365 := by omega
  constructor
  · have htwelve := (monthOfDay_bounds _ hyear).2
    split <;> omega
  · unfold monthOfDay monthStart
    omega

end Date

/-! ## Seconds -/

namespace LocalTime

/-- The seconds after 1970-01-01 00:00:00 at a local time. -/
def toSeconds (l : LocalTime) : Int :=
  l.date.toDays * 86400 + (l.hour * 3600 + l.minute * 60 + l.second : Nat)

/-- The parts of a local time that are written with two digits fit in them. -/
structure Fits (l : LocalTime) : Prop where
  month : l.date.month < 100
  day : l.date.day < 100
  hour : l.hour < 100
  minute : l.minute < 100
  second : l.second < 100

theorem toSeconds_ofSeconds (seconds : Int) : (ofSeconds seconds).toSeconds = seconds := by
  unfold toSeconds ofSeconds
  dsimp only
  rw [Date.toDays_ofDays]
  omega

end LocalTime

namespace Instant

variable {t u : Instant} {offset : Int}

/-- The wall clock tells the second. -/
theorem toSeconds_localTime (t : Instant) (offset : Int) :
    (t.localTime offset).toSeconds = t.seconds + offset + (t.nanoseconds / 1000000000 : Nat) := by
  rw [← LocalTime.toSeconds_ofSeconds (t.seconds + offset)]
  unfold LocalTime.toSeconds localTime
  dsimp only
  omega

theorem nanoseconds_lt_of_isTellable (h : t.isTellable) : t.nanoseconds < 2000000000 := by
  simp only [isTellable, Bool.and_eq_true, Bool.or_eq_true, decide_eq_true_eq] at h
  omega

theorem fits_localTime (h : t.isTellable) (offset : Int) : (t.localTime offset).Fits := by
  have hleap := nanoseconds_lt_of_isTellable h
  obtain ⟨hmonth, hday⟩ := Date.bounds_ofDays ((t.seconds + offset) / 86400)
  refine ⟨?_, ?_, ?_, ?_, ?_⟩ <;> simp only [localTime, LocalTime.ofSeconds] <;> omega

end Instant

/-! ## Digits -/

theorem padZeros_inj {width m n : Nat}
    (h : Text.padZeros width (toString m) = Text.padZeros width (toString n)) : m = n := by
  rw [← Text.ofDigitChars_padZeros width m, h, Text.ofDigitChars_padZeros]

/-- A number that fits is padded to the width. -/
theorem length_padZeros {width n : Nat} (h : (toString n).length ≤ width) :
    (Text.padZeros width (toString n)).toList.length = width := by
  rw [Text.padZeros, String.toList_append, List.length_append, String.toList_ofList,
    List.length_replicate, String.length_toList]
  omega

/-- A number has no more digits than the power of ten that it is below. -/
theorem length_toString_le {n digits : Nat} (hdigits : 0 < digits) (h : n < Nat.pow 10 digits) :
    (toString n).length ≤ digits := by
  rw [← String.length_toList, Nat.toString_eq_repr, Nat.toList_repr]
  exact (Nat.length_toDigits_le_iff (by decide) hdigits).mpr h

/-- Two digits are two characters. -/
theorem length_twoDigits {n : Nat} (h : n < 100) : (twoDigits n).toList.length = 2 :=
  length_padZeros (length_toString_le (by decide) h)

/-- A year with more than four digits begins with its sign, and only such a year does. -/
theorem yearText_inj {y z : Int} (h : yearText y = yearText z) : y = z := by
  have hplain : ∀ {n : Nat} {sign : Char} {rest : List Char}, ¬ sign.isDigit →
      (Text.padZeros 4 (toString n)).toList ≠ sign :: rest := by
    intro n sign rest hsign htext
    have hmem : sign ∈ (Text.padZeros 4 (toString n)).toList := by
      rw [htext]
      exact List.mem_cons_self
    exact hsign (Text.isDigit_of_mem_padZeros hmem)
  have hsigned : ∀ {x : Int}, ¬ (0 ≤ x ∧ x ≤ 9999) → (yearText x).toList =
      (if x < 0 then '-' else '+') :: (Text.padZeros 4 (toString x.natAbs)).toList := by
    intro x hx
    unfold yearText
    rw [if_neg (by simpa using hx), String.toList_append]
    split <;> rfl
  have hdigits : ∀ {x : Int}, (0 ≤ x ∧ x ≤ 9999) →
      yearText x = Text.padZeros 4 (toString x.toNat) := by
    intro x hx
    unfold yearText
    rw [if_pos (by simpa using hx)]
  have hsign : ∀ x : Int, ¬ (if x < 0 then '-' else '+').isDigit := by
    intro x
    split <;> decide
  by_cases hy : 0 ≤ y ∧ y ≤ 9999 <;> by_cases hz : 0 ≤ z ∧ z ≤ 9999
  · rw [hdigits hy, hdigits hz] at h
    have hsame := padZeros_inj h
    omega
  · rw [hdigits hy] at h
    exact absurd ((congrArg String.toList h).trans (hsigned hz)) (hplain (hsign z))
  · rw [hdigits hz] at h
    exact absurd ((congrArg String.toList h.symm).trans (hsigned hy)) (hplain (hsign y))
  · have hlists := (hsigned hy).symm.trans ((congrArg String.toList h).trans (hsigned hz))
    obtain ⟨hhead, htail⟩ := List.cons.inj hlists
    have hsame := padZeros_inj (String.toList_inj.mp htail)
    split at hhead <;> split at hhead <;> first | omega | cases hhead

/-! ## Names -/

namespace LocalTime

variable {l k : LocalTime}

/-- The name of a build as a list of characters. -/
theorem toList_buildName (l : LocalTime) : l.buildName.toList =
    "build".toList ++ ((yearText l.date.year).toList ++
      ("-".toList ++ ((twoDigits l.date.month).toList ++
        ("-".toList ++ ((twoDigits l.date.day).toList ++
          ("-".toList ++ ((twoDigits l.hour).toList ++
            (":".toList ++ ((twoDigits l.minute).toList ++
              (":".toList ++ (twoDigits l.second).toList)))))))))) := by
  unfold buildName
  simp only [String.toList_append, List.append_assoc]

/-- The name of a build tells the local time. -/
theorem buildName_inj (hl : l.Fits) (hk : k.Fits) (h : l.buildName = k.buildName) : l = k := by
  have hlists := congrArg String.toList h
  rw [toList_buildName, toList_buildName] at hlists
  -- What follows the year has a fixed length, and each of its parts has.
  obtain ⟨hyear, hlists⟩ := List.append_inj' (List.append_cancel_left hlists) (by
    simp only [List.length_append, length_twoDigits hl.month, length_twoDigits hl.day,
      length_twoDigits hl.hour, length_twoDigits hl.minute, length_twoDigits hl.second,
      length_twoDigits hk.month, length_twoDigits hk.day, length_twoDigits hk.hour,
      length_twoDigits hk.minute, length_twoDigits hk.second])
  have hpart : ∀ {separator rest rest' : List Char} {m n : Nat}, m < 100 → n < 100 →
      separator ++ ((twoDigits m).toList ++ rest) = separator ++ ((twoDigits n).toList ++ rest') →
      m = n ∧ rest = rest' := by
    intro separator rest rest' m n hm hn htext
    obtain ⟨htwo, hrest⟩ := List.append_inj (List.append_cancel_left htext)
      ((length_twoDigits hm).trans (length_twoDigits hn).symm)
    exact ⟨padZeros_inj (String.toList_inj.mp htwo), hrest⟩
  obtain ⟨hmonth, hlists⟩ := hpart hl.month hk.month hlists
  obtain ⟨hday, hlists⟩ := hpart hl.day hk.day hlists
  obtain ⟨hhour, hlists⟩ := hpart hl.hour hk.hour hlists
  obtain ⟨hminute, hlists⟩ := hpart hl.minute hk.minute hlists
  have hsecond := padZeros_inj (String.toList_inj.mp (List.append_cancel_left hlists))
  have hyear := yearText_inj (String.toList_inj.mp hyear)
  obtain ⟨⟨_, _, _⟩, _, _, _⟩ := l
  obtain ⟨⟨_, _, _⟩, _, _, _⟩ := k
  simp only at hyear hmonth hday hhour hminute hsecond
  rw [hyear, hmonth, hday, hhour, hminute, hsecond]

/-- The name of a build has nothing in it but digits and a few other characters. -/
theorem forall_mem_buildName {p : Char → Prop} (hdigit : ∀ c : Char, c.isDigit = true → p c)
    (hother : ∀ c ∈ "build-:+".toList, p c) (l : LocalTime) : ∀ c ∈ l.buildName.toList, p c := by
  have hdigits : ∀ width (n : Nat), ∀ c ∈ (Text.padZeros width (toString n)).toList, p c :=
    fun _ _ c hc => hdigit c (Text.isDigit_of_mem_padZeros hc)
  have hpart : ∀ {part : String}, part.toList ⊆ "build-:+".toList → ∀ c ∈ part.toList, p c :=
    fun hpart c hc => hother c (hpart hc)
  have hyear : ∀ c ∈ (yearText l.date.year).toList, p c := by
    unfold yearText
    split
    · exact hdigits 4 _
    · rw [String.toList_append, List.forall_mem_append]
      refine ⟨?_, hdigits 4 _⟩
      split <;> exact hpart (by simp)
  have htwo : ∀ n, ∀ c ∈ (twoDigits n).toList, p c := hdigits 2
  rw [toList_buildName]
  simp only [List.forall_mem_append]
  exact ⟨hpart (by simp), hyear, hpart (by simp), htwo _, hpart (by simp), htwo _,
    hpart (by simp), htwo _, hpart (by simp), htwo _, hpart (by simp), htwo _⟩

/-- The name of a build has no separator in it. -/
theorem separator_notMem_buildName (l : LocalTime) : '/' ∉ l.buildName.toList := by
  have hne : ∀ c ∈ l.buildName.toList, c ≠ '/' := by
    refine forall_mem_buildName ?_ (by simp) l
    rintro c hdigit rfl
    cases hdigit
  exact fun hmem => hne _ hmem rfl

end LocalTime

/-- Instants at which the wall clock leads to the same name are in the same second. -/
theorem Instant.second_eq_of_buildName_eq {t u : Instant} {offset : Int} (ht : t.isTellable)
    (hu : u.isTellable) (h : (t.localTime offset).buildName = (u.localTime offset).buildName) :
    t.seconds + (t.nanoseconds / 1000000000 : Nat) =
      u.seconds + (u.nanoseconds / 1000000000 : Nat) := by
  have hsame := LocalTime.buildName_inj (fits_localTime ht offset) (fits_localTime hu offset) h
  have hseconds := t.toSeconds_localTime offset
  rw [hsame, u.toSeconds_localTime offset] at hseconds
  omega

end Calendar

/-! ## Paths that end in a name -/

namespace Path

/-- The last piece of a path that ends in a name is the name. -/
theorem getLast?_pieces_join (parent : Path) {name : String} (h : '/' ∉ name.toList) :
    (Text.pieces '/' (parent.join name).text.toList).getLast? = some name.toList := by
  have hrelative : (Path.mk name).isAbsolute = false := by
    refine decide_eq_false fun hhead => h ?_
    exact List.mem_of_head? hhead
  rcases join_of_relative parent hrelative with ⟨-, hjoin⟩ | ⟨front, -, hjoin⟩
  · rw [hjoin]
    show (Text.pieces '/' name.toList).getLast? = _
    rw [Text.pieces_of_notMem h]
    rfl
  · rw [hjoin, Text.pieces_append_separator, Text.pieces_of_notMem h, List.getLast?_append]
    rfl

/-- Paths that end in different names are different. -/
theorem join_name_inj {parent parent' : Path} {name name' : String} (hname : '/' ∉ name.toList)
    (hname' : '/' ∉ name'.toList) (h : parent.join name = parent'.join name') : name = name' := by
  have hlast := parent.getLast?_pieces_join hname
  rw [h, parent'.getLast?_pieces_join hname'] at hlast
  exact String.toList_inj.mp (Option.some.inj hlast).symm

end Path

end DaemonKeeper
