import DaemonKeeper.Proofs.CivilDays
import DaemonKeeper.Text.Utf8
set_option autoImplicit false

/-!
# Build directory names sort by time (SPEC §2)

The name of a build shows the date and the time of day, from the year down to the second, each part
with as many digits as any other time has there, as long as the year has four.  Such names are in
the order of the numbers that their digits write, the numbers in the order of the seconds, and so is
the order of the bytes.
-/

namespace DaemonKeeper

/-! ## The order of texts -/

namespace Text

variable {xs ys as bs : List Char}

/-- An ASCII character is a byte. -/
theorem encodeChar_of_lt {c : Char} (h : c.toNat < 0x80) :
    encodeChar c = [UInt8.ofNat c.toNat] :=
  if_pos h

/-- The bytes of ASCII texts are in the order of the texts. -/
theorem encode_lt_encode_iff (hxs : ∀ c ∈ xs, c.toNat < 0x80) (hys : ∀ c ∈ ys, c.toNat < 0x80) :
    encode xs < encode ys ↔ xs < ys := by
  induction xs generalizing ys with
  | nil =>
    cases ys with
    | nil => exact iff_of_false (List.not_lt_nil _) (List.not_lt_nil _)
    | cons y ys =>
      rw [encode, encode, List.flatMap_cons, encodeChar_of_lt (hys y List.mem_cons_self)]
      exact iff_of_true (List.nil_lt_cons _ _) (List.nil_lt_cons _ _)
  | cons x xs ih =>
    cases ys with
    | nil => exact iff_of_false (List.not_lt_nil _) (List.not_lt_nil _)
    | cons y ys =>
      obtain ⟨hx, hxs⟩ := List.forall_mem_cons.mp hxs
      obtain ⟨hy, hys⟩ := List.forall_mem_cons.mp hys
      have hless : UInt8.ofNat x.toNat < UInt8.ofNat y.toNat ↔ x < y := by
        rw [UInt8.lt_iff_toNat_lt, UInt8.toNat_ofNat', UInt8.toNat_ofNat',
          Nat.mod_eq_of_lt (hx.trans (by decide)), Nat.mod_eq_of_lt (hy.trans (by decide))]
        rfl
      have hsame : UInt8.ofNat x.toNat = UInt8.ofNat y.toNat ↔ x = y := by
        rw [← UInt8.toNat_inj, UInt8.toNat_ofNat', UInt8.toNat_ofNat',
          Nat.mod_eq_of_lt (hx.trans (by decide)), Nat.mod_eq_of_lt (hy.trans (by decide)),
          Char.toNat_inj]
      have hrest : encode xs < encode ys ↔ xs < ys := ih hxs hys
      unfold encode at hrest ⊢
      rw [List.flatMap_cons, List.flatMap_cons, encodeChar_of_lt hx, encodeChar_of_lt hy,
        List.singleton_append, List.singleton_append, List.cons_lt_cons_iff, List.cons_lt_cons_iff,
        hless, hsame, hrest]

/-- Texts that begin with parts of the same length are in the order of these parts, or if the parts
are the same, of what follows. -/
theorem append_lt_append_iff (h : xs.length = ys.length) :
    xs ++ as < ys ++ bs ↔ xs < ys ∨ xs = ys ∧ as < bs := by
  induction xs generalizing ys with
  | nil =>
    rw [List.length_nil] at h
    rw [List.eq_nil_of_length_eq_zero h.symm]
    simp
  | cons x xs ih =>
    cases ys with
    | nil => cases h
    | cons y ys =>
      have hrest := ih (Nat.succ.inj h)
      rw [List.cons_append, List.cons_append, List.cons_lt_cons_iff, List.cons_lt_cons_iff, hrest,
        List.cons.injEq]
      tauto

theorem append_left_lt_iff (front : List Char) : front ++ as < front ++ bs ↔ as < bs := by
  induction front with
  | nil => exact Iff.rfl
  | cons c front ih => rw [List.cons_append, List.cons_append, List.cons_lt_cons_self, ih]

/-- Digits that follow a smaller number lead to a smaller number. -/
theorem ofDigitChars_lt_of_lt (hlength : xs.length = ys.length)
    (hxs : ∀ c ∈ xs, c.isDigit = true) {m n : Nat} (h : m < n) :
    Nat.ofDigitChars 10 xs m < Nat.ofDigitChars 10 ys n := by
  induction xs generalizing ys m n with
  | nil =>
    rw [List.length_nil] at hlength
    rw [List.eq_nil_of_length_eq_zero hlength.symm]
    exact h
  | cons x xs ih =>
    cases ys with
    | nil => cases hlength
    | cons y ys =>
      obtain ⟨hx, hxs⟩ := List.forall_mem_cons.mp hxs
      obtain ⟨-, hnine⟩ := Char.isDigit_iff_toNat.mp hx
      have hdigit : '9'.toNat = '0'.toNat + 9 := rfl
      rw [Nat.ofDigitChars_cons, Nat.ofDigitChars_cons]
      exact ih (Nat.succ.inj hlength) hxs (by omega)

/-- As many digits are in the order of the numbers that they write. -/
theorem lt_iff_ofDigitChars_lt (hlength : xs.length = ys.length)
    (hxs : ∀ c ∈ xs, c.isDigit = true) (hys : ∀ c ∈ ys, c.isDigit = true) (start : Nat) :
    xs < ys ↔ Nat.ofDigitChars 10 xs start < Nat.ofDigitChars 10 ys start := by
  induction xs generalizing ys start with
  | nil =>
    rw [List.length_nil] at hlength
    rw [List.eq_nil_of_length_eq_zero hlength.symm]
    exact iff_of_false (List.not_lt_nil _) (Nat.lt_irrefl _)
  | cons x xs ih =>
    cases ys with
    | nil => cases hlength
    | cons y ys =>
      have hrest : xs.length = ys.length := Nat.succ.inj hlength
      obtain ⟨hx, hxRest⟩ := List.forall_mem_cons.mp hxs
      obtain ⟨hy, hyRest⟩ := List.forall_mem_cons.mp hys
      obtain ⟨hzero, -⟩ := Char.isDigit_iff_toNat.mp hx
      obtain ⟨hzero', -⟩ := Char.isDigit_iff_toNat.mp hy
      rw [Nat.ofDigitChars_cons, Nat.ofDigitChars_cons, List.cons_lt_cons_iff]
      rcases Nat.lt_trichotomy x.toNat y.toNat with hlt | heq | hgt
      · have hnumbers := ofDigitChars_lt_of_lt hrest hxRest
          (show 10 * start + (x.toNat - '0'.toNat) < 10 * start + (y.toNat - '0'.toNat) by omega)
        exact iff_of_true (.inl hlt) hnumbers
      · obtain rfl := Char.toNat_inj.mp heq
        rw [← ih hrest hxRest hyRest]
        simp
      · have hnumbers := ofDigitChars_lt_of_lt hrest.symm hyRest
          (show 10 * start + (y.toNat - '0'.toNat) < 10 * start + (x.toNat - '0'.toNat) by omega)
        refine iff_of_false ?_ (Nat.lt_asymm hnumbers)
        rintro (hless | ⟨rfl, -⟩)
        · exact Nat.lt_asymm hgt hless
        · exact Nat.lt_irrefl _ hgt

end Text

namespace Calendar

variable {width m n : Nat} {as bs : List Char}

/-! ## The order of numbers in a text -/

/-- Numbers that are written with as many digits as each other are in the order of what is written. -/
theorem padZeros_append_lt_iff (hm : (toString m).length ≤ width) (hn : (toString n).length ≤ width) :
    (Text.padZeros width (toString m)).toList ++ as < (Text.padZeros width (toString n)).toList ++ bs ↔
      m < n ∨ m = n ∧ as < bs := by
  have hlength := (length_padZeros hm).trans (length_padZeros hn).symm
  have hless : (Text.padZeros width (toString m)).toList <
      (Text.padZeros width (toString n)).toList ↔ m < n := by
    rw [Text.lt_iff_ofDigitChars_lt hlength (fun _ => Text.isDigit_of_mem_padZeros)
      (fun _ => Text.isDigit_of_mem_padZeros) 0, Text.ofDigitChars_padZeros, Text.ofDigitChars_padZeros]
  have hsame : (Text.padZeros width (toString m)).toList =
      (Text.padZeros width (toString n)).toList ↔ m = n :=
    ⟨fun h => padZeros_inj (String.toList_inj.mp h), fun h => h ▸ rfl⟩
  rw [Text.append_lt_append_iff hlength, hless, hsame]

/-- The same with two digits each and the same text before them. -/
theorem append_twoDigits_append_lt_iff (separator : List Char) (hm : m < 100) (hn : n < 100) :
    separator ++ ((twoDigits m).toList ++ as) < separator ++ ((twoDigits n).toList ++ bs) ↔
      m < n ∨ m = n ∧ as < bs := by
  rw [Text.append_left_lt_iff]
  exact padZeros_append_lt_iff (length_toString_le Nat.zero_lt_two hm)
    (length_toString_le Nat.zero_lt_two hn)

namespace LocalTime

variable {l k : LocalTime}

/-! ## Names and seconds as numbers -/

/-- The digits of a local time without what stands between them, read as one number. -/
def number (l : LocalTime) : Int :=
  ((l.date.number * 100 + l.hour) * 100 + l.minute) * 100 + l.second

/-- Names with years of four digits are in the order of the numbers that their digits write. -/
theorem buildName_lt_iff (hl : l.Fits) (hk : k.Fits) (hlYear : 0 ≤ l.date.year ∧ l.date.year ≤ 9999)
    (hkYear : 0 ≤ k.date.year ∧ k.date.year ≤ 9999) :
    l.buildName.toList < k.buildName.toList ↔ l.number < k.number := by
  have hyear : ∀ {year : Int}, 0 ≤ year ∧ year ≤ 9999 →
      yearText year = Text.padZeros 4 (toString year.toNat) ∧ (toString year.toNat).length ≤ 4 := by
    intro year hbounds
    refine ⟨if_pos (by simpa using hbounds), length_toString_le (by decide) ?_⟩
    show year.toNat < 10000
    omega
  obtain ⟨hlText, hlDigits⟩ := hyear hlYear
  obtain ⟨hkText, hkDigits⟩ := hyear hkYear
  have hend : ∀ text : List Char, text = text ++ [] := fun text => (List.append_nil text).symm
  rw [toList_buildName, toList_buildName, Text.append_left_lt_iff, hlText, hkText,
    padZeros_append_lt_iff hlDigits hkDigits, append_twoDigits_append_lt_iff _ hl.month hk.month,
    append_twoDigits_append_lt_iff _ hl.day hk.day, append_twoDigits_append_lt_iff _ hl.hour hk.hour,
    append_twoDigits_append_lt_iff _ hl.minute hk.minute, hend (twoDigits l.second).toList,
    hend (twoDigits k.second).toList, append_twoDigits_append_lt_iff _ hl.second hk.second]
  obtain ⟨hlMonth, hlDay, hlHour, hlMinute, hlSecond⟩ := hl
  obtain ⟨hkMonth, hkDay, hkHour, hkMinute, hkSecond⟩ := hk
  simp only [number, Date.number, List.not_lt_nil, and_false, or_false]
  omega

/-- The name of a build has nothing in it but ASCII characters. -/
theorem toNat_lt_of_mem_buildName : ∀ c ∈ l.buildName.toList, c.toNat < 0x80 := by
  refine forall_mem_buildName (fun c hdigit => ?_) (by simp) l
  have hnine : '9'.toNat = 57 := rfl
  have hhigh := (Char.isDigit_iff_toNat.mp hdigit).2
  omega

/-- Later in a day, the hours, minutes and seconds make a larger number. -/
theorem timeOfDay_lt {r r' : Nat} (h : r < r') :
    (r / 3600 * 100 + r / 60 % 60) * 100 + r % 60 <
      (r' / 3600 * 100 + r' / 60 % 60) * 100 + r' % 60 := by
  have hsplit : ∀ n : Nat, n / 3600 * 3600 + n / 60 % 60 * 60 + n % 60 = n := by
    intro n
    omega
  have hminute : ∀ n : Nat, n / 60 % 60 < 60 := fun n => Nat.mod_lt _ (by decide)
  have hr := hsplit r
  have hr' := hsplit r'
  have hm := hminute r
  have hm' := hminute r'
  generalize r / 3600 = hour at *
  generalize r / 60 % 60 = minute at *
  generalize r' / 3600 = hour' at *
  generalize r' / 60 % 60 = minute' at *
  omega

/-- Later seconds have larger numbers. -/
theorem number_ofSeconds_lt {s t : Int} (h : s < t) : (ofSeconds s).number < (ofSeconds t).number := by
  simp only [ofSeconds, number]
  rcases Int.lt_trichotomy (s / 86400) (t / 86400) with hdays | hdays | hdays
  · have hdates := Date.number_ofDays_lt hdays
    omega
  · have htime := timeOfDay_lt (show (s % 86400).toNat < (t % 86400).toNat by omega)
    rw [hdays]
    omega
  · omega

theorem number_ofSeconds_lt_iff {s t : Int} :
    (ofSeconds s).number < (ofSeconds t).number ↔ s < t := by
  refine ⟨fun h => ?_, number_ofSeconds_lt⟩
  rcases Int.lt_trichotomy s t with hlt | rfl | hgt
  · exact hlt
  · exact absurd h (Int.lt_irrefl _)
  · exact absurd h (Int.lt_asymm (number_ofSeconds_lt hgt))

/-! ## What a wall clock shows -/

/-- A local time on a wall clock: the date is in the calendar, and the time of day is one of 24
hours of 60 minutes of 60 seconds. -/
structure Valid (l : LocalTime) : Prop where
  date : l.date.Valid
  hour : l.hour < 24
  minute : l.minute < 60
  second : l.second < 60

/-- The local time is so many seconds after 1970-01-01 00:00:00. -/
def Shows (l : LocalTime) (seconds : Int) : Prop :=
  ∃ day, l.date.FallsOn day ∧ seconds = day * 86400 + (l.hour * 3600 + l.minute * 60 + l.second : Nat)

theorem Valid.fits (h : l.Valid) : l.Fits where
  month := h.date.month_le.trans_lt (by decide)
  day := h.date.day_le_31.trans_lt (by decide)
  hour := h.hour.trans (by decide)
  minute := h.minute.trans (by decide)
  second := h.second.trans (by decide)

theorem valid_ofSeconds (seconds : Int) : (ofSeconds seconds).Valid where
  date := Date.valid_ofDays _
  hour := by
    simp only [ofSeconds]
    omega
  minute := Nat.mod_lt _ (by decide)
  second := Nat.mod_lt _ (by decide)

/-- The only local time that is so many seconds after 1970-01-01 00:00:00 is the one that is
computed. -/
theorem Valid.shows_iff {seconds : Int} (h : l.Valid) : l.Shows seconds ↔ l = ofSeconds seconds := by
  constructor
  · rintro ⟨day, hday, rfl⟩
    obtain ⟨-, hhour, hminute, hsecond⟩ := h
    obtain ⟨date, hour, minute, second⟩ := l
    obtain rfl := Date.fallsOn_iff.mp hday
    dsimp only at *
    have hquotient : (day * 86400 + (hour * 3600 + minute * 60 + second : Nat)) / 86400 = day := by
      omega
    have hrest : ((day * 86400 + (hour * 3600 + minute * 60 + second : Nat)) % 86400).toNat =
        hour * 3600 + minute * 60 + second := by
      omega
    simp only [ofSeconds, hquotient, hrest, mk.injEq, true_and]
    omega
  · rintro rfl
    refine ⟨seconds / 86400, Date.fallsOn_ofDays _, ?_⟩
    simp only [ofSeconds]
    omega

end LocalTime

/-! ## Names of instants -/

/-- Without a leap second the wall clock shows the second that the offset leads to. -/
theorem Instant.localTime_eq {t : Instant} (h : t.nanoseconds < 1000000000) (offset : Int) :
    t.localTime offset = LocalTime.ofSeconds (t.seconds + offset) := by
  simp only [localTime, Nat.div_eq_of_lt h, Nat.add_zero]

theorem buildName?_eq_some {t : Instant} {offset : Int} (ht : t.isTellable)
    (hwest : -86400 < offset) (heast : offset < 86400) :
    buildName? t offset = some (t.localTime offset).buildName := by
  rw [buildName?, if_pos]
  simp [ht, hwest, heast]

/-- An instant that can be told, and is in no leap second, leads to a name.  The wall clock shows a
date of the calendar and a time of day, and no other date and time have this name.  The names of two
such instants are the same if and only if they lie in the same second; where the years have four
digits, the names are in the order of the seconds, byte by byte. -/
theorem names_tell_and_sort_seconds (t u : Instant) (offset : Int) (ht : t.isTellable)
    (hu : u.isTellable) (htWhole : t.nanoseconds < 1000000000) (huWhole : u.nanoseconds < 1000000000)
    (hwest : -86400 < offset) (heast : offset < 86400) :
    buildName? t offset = some (t.localTime offset).buildName ∧
      (t.localTime offset).Valid ∧ (t.localTime offset).Shows (t.seconds + offset) ∧
      (∀ l : LocalTime, l.Valid →
        (l.buildName = (t.localTime offset).buildName ↔ l.Shows (t.seconds + offset))) ∧
      (buildName? t offset = buildName? u offset ↔ t.seconds = u.seconds) ∧
      (0 ≤ (t.localTime offset).date.year ∧ (t.localTime offset).date.year ≤ 9999 →
        0 ≤ (u.localTime offset).date.year ∧ (u.localTime offset).date.year ≤ 9999 →
        (Text.bytes (t.localTime offset).buildName < Text.bytes (u.localTime offset).buildName ↔
          t.seconds < u.seconds)) := by
  have htValid := LocalTime.valid_ofSeconds (t.seconds + offset)
  have huValid := LocalTime.valid_ofSeconds (u.seconds + offset)
  rw [buildName?_eq_some ht hwest heast, buildName?_eq_some hu hwest heast,
    Instant.localTime_eq htWhole, Instant.localTime_eq huWhole]
  refine ⟨rfl, htValid, htValid.shows_iff.mpr rfl, fun l hl => ?_, ?_, fun htYear huYear => ?_⟩
  · rw [hl.shows_iff]
    exact ⟨LocalTime.buildName_inj hl.fits htValid.fits, fun hsame => hsame ▸ rfl⟩
  · rw [Option.some.injEq]
    constructor
    · intro hname
      have hsame := LocalTime.buildName_inj htValid.fits huValid.fits hname
      have hseconds := congrArg LocalTime.toSeconds hsame
      rw [LocalTime.toSeconds_ofSeconds, LocalTime.toSeconds_ofSeconds] at hseconds
      omega
    · intro hsecond
      rw [hsecond]
  · rw [Text.bytes, Text.bytes, Text.encode_lt_encode_iff LocalTime.toNat_lt_of_mem_buildName
      LocalTime.toNat_lt_of_mem_buildName, LocalTime.buildName_lt_iff htValid.fits huValid.fits htYear
      huYear, LocalTime.number_ofSeconds_lt_iff, Int.add_lt_add_iff_right]

/-- At the end of a leap day, an hour east of UTC. -/
theorem names_tell_and_sort_seconds_leap_day :
    buildName? ⟨1709247599, 500000000⟩ 3600 = some "build2024-02-29-23:59:59" ∧
      Text.bytes "build2024-02-29-23:59:59" < Text.bytes "build2024-03-01-00:00:00" := by
  obtain ⟨hname, -, -, -, -, hsort⟩ := names_tell_and_sort_seconds ⟨1709247599, 500000000⟩
    ⟨1709247600, 0⟩ 3600 (by decide) (by decide) (by decide) (by decide) (by decide) (by decide)
  exact ⟨hname, (hsort (by decide) (by decide)).mpr (by decide)⟩

end Calendar

end DaemonKeeper
