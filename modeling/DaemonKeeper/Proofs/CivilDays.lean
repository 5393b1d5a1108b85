import DaemonKeeper.Proofs.BuildNames
import Mathlib.Order.Monotone.Basic
import Mathlib.Tactic.IntervalCases
import Mathlib.Tactic.SplitIfs
set_option autoImplicit false

/-!
# Days and dates, counted one by one

The calendar is known from one date, 1970-01-01, and from what dates come after and before a date:
the next day of the month, or the first of the next month, or the first of the next year, and the
same backwards.  The date of a day is computed in one go instead, from an era of 400 years, a year
of it that begins in March and a month of that.  The two agree on every day, also before the year
zero.
-/

namespace DaemonKeeper.Calendar

namespace Date

/-! ## The calendar -/

/-- A date that is in the calendar. -/
structure Valid (d : Date) : Prop where
  month_pos : 1 ≤ d.month
  month_le : d.month ≤ 12
  day_pos : 1 ≤ d.day
  day_le : d.day ≤ monthLength d.year d.month

/-- The date after a date. -/
def next (d : Date) : Date :=
  if d.day < monthLength d.year d.month then { d with day := d.day + 1 }
  else if d.month < 12 then { d with month := d.month + 1, day := 1 }
  else ⟨d.year + 1, 1, 1⟩

/-- The date before a date. -/
def previous (d : Date) : Date :=
  if 1 < d.day then { d with day := d.day - 1 }
  else if 1 < d.month then ⟨d.year, d.month - 1, monthLength d.year (d.month - 1)⟩
  else ⟨d.year - 1, 12, 31⟩

/-- A date falls on a day, if counting from 1970-01-01, forwards and backwards, leads to both. -/
inductive FallsOn : Date → Int → Prop where
  | epoch : FallsOn ⟨1970, 1, 1⟩ 0
  | next {d : Date} {day : Int} : FallsOn d day → FallsOn d.next (day + 1)
  | previous {d : Date} {day : Int} : FallsOn d day → FallsOn d.previous (day - 1)

variable {d : Date} {day : Int}

/-- A month has some days, and at most 31. -/
theorem monthLength_bounds (year : Int) (month : Nat) :
    28 ≤ monthLength year month ∧ monthLength year month ≤ 31 := by
  unfold monthLength
  split
  · split <;> decide
  · split <;> decide

theorem Valid.day_le_31 (h : d.Valid) : d.day ≤ 31 :=
  h.day_le.trans (monthLength_bounds d.year d.month).2

/-- One date forwards and one backwards is the same date. -/
theorem previous_next (h : d.Valid) : d.next.previous = d := by
  obtain ⟨year, month, day⟩ := d
  obtain ⟨hmonth, htwelve, hday, hlength⟩ := h
  dsimp only at *
  by_cases hwithin : day < monthLength year month
  · have hlater : 1 < day + 1 := by omega
    rw [next, if_pos hwithin, previous, if_pos hlater]
    rfl
  have hend : monthLength year month = day := by omega
  by_cases hearly : month < 12
  · have hlater : 1 < month + 1 := by omega
    rw [next, if_neg hwithin, if_pos hearly, previous, if_neg (Nat.lt_irrefl 1), if_pos hlater]
    simp only [Nat.add_sub_cancel, hend]
  · obtain rfl : month = 12 := by omega
    obtain rfl : 31 = day := hend
    rw [next, if_neg hwithin, if_neg hearly, previous, if_neg (Nat.lt_irrefl 1),
      if_neg (Nat.lt_irrefl 1), Int.add_sub_cancel]

/-! ## Leap years -/

/-- Whether a year is a leap year can be told from its place in an era. -/
theorem isLeap_iff (era : Int) (y : Nat) : isLeap (era * 400 + y) = true ↔
    4 ∣ y ∧ (¬ 100 ∣ y ∨ 400 ∣ y) := by
  simp only [isLeap, Bool.and_eq_true, Bool.or_eq_true, decide_eq_true_eq]
  omega

/-- A March-based year has a leap day if the year in which it ends is a leap year. -/
theorem yearStart_succ (era : Int) (y : Nat) :
    yearStart (y + 1) = yearStart y + if isLeap (era * 400 + (y + 1 : Nat)) then 366 else 365 := by
  have hquarters := Nat.succ_div (a := y) (b := 4)
  have hcenturies := Nat.succ_div (a := y) (b := 100)
  have heras := Nat.succ_div (a := y) (b := 400)
  have hfewer : y / 100 ≤ y / 4 := Nat.div_le_div_left (by decide) (by decide)
  have h100 : 100 ∣ y + 1 → 4 ∣ y + 1 := fun h => Nat.dvd_trans (by decide) h
  have h400 : 400 ∣ y + 1 → 100 ∣ y + 1 := fun h => Nat.dvd_trans (by decide) h
  simp only [isLeap_iff]
  unfold yearStart
  rw [hquarters, hcenturies, heras]
  by_cases hfour : 4 ∣ y + 1
  · by_cases hhundred : 100 ∣ y + 1
    · by_cases hfull : 400 ∣ y + 1
      · simp only [hfour, hhundred, hfull, if_true, not_true_eq_false, or_true, and_true]
        omega
      · simp only [hfour, hhundred, hfull, if_true, if_false, not_true_eq_false, or_false, and_false]
        omega
    · have hfull : ¬ 400 ∣ y + 1 := fun h => hhundred (h400 h)
      simp only [hfour, hhundred, hfull, if_true, if_false, not_false_eq_true, or_false, and_true]
      omega
  · have hhundred : ¬ 100 ∣ y + 1 := fun h => hfour (h100 h)
    have hfull : ¬ 400 ∣ y + 1 := fun h => hhundred (h400 h)
    simp only [hfour, hhundred, hfull, if_false, false_and]
    omega

/-! ## Years and months of an era -/

theorem yearStart_succ_ge (y : Nat) : yearStart y + 365 ≤ yearStart (y + 1) := by
  rw [yearStart_succ 0]
  split <;> omega

theorem yearStart_mono : Monotone yearStart :=
  monotone_nat_of_le_succ fun y => (Nat.le_add_right _ _).trans (yearStart_succ_ge y)

/-- A day lies in only one year of its era. -/
theorem yearOfDay_eq {y day : Nat} (hstart : yearStart y ≤ day) (hnext : day < yearStart (y + 1))
    (hera : day < eraDays) : yearOfDay day = y := by
  obtain ⟨hstart', hnext', -⟩ := yearOfDay_bounds hera
  have hlt : y < yearOfDay day + 1 := yearStart_mono.reflect_lt (hstart.trans_lt hnext')
  have hgt : yearOfDay day < y + 1 := yearStart_mono.reflect_lt (hstart'.trans_lt hnext)
  omega

theorem lt_monthStart_succ (day : Nat) : day < monthStart (monthOfDay day + 1) := by
  unfold monthOfDay monthStart
  omega

/-- A day lies in only one month of its year. -/
theorem monthOfDay_eq {m k : Nat} (h : monthStart m + k < monthStart (m + 1)) :
    monthOfDay (monthStart m + k) = m := by
  unfold monthStart at *
  unfold monthOfDay
  omega

/-! ## March-based parts -/

/-- A day by its era, the year of the era that begins in March, the month of this year and the day
of this month, all but the era counted from zero. -/
structure Parts where
  era : Int
  year : Nat
  month : Nat
  day : Nat

namespace Parts

/-- The date of a day in parts. -/
def date (p : Parts) : Date where
  year := if p.month < 10 then p.era * 400 + p.year else p.era * 400 + p.year + 1
  month := if p.month < 10 then p.month + 3 else p.month - 9
  day := p.day + 1

/-- The day counted from 1970-01-01. -/
def days (p : Parts) : Int :=
  p.era * eraDays + (yearStart p.year + monthStart p.month + p.day : Nat) - epochShift

/-- The length of the month. -/
def length (p : Parts) : Nat := monthLength p.date.year p.date.month

/-- Each part lies in the one before it. -/
structure Valid (p : Parts) : Prop where
  year_lt : p.year < 400
  month_lt : p.month < 12
  day_lt : p.day < p.length

/-- The parts of a day. -/
def ofDays (days : Int) : Parts :=
  let day := ((days + epochShift) % eraDays).toNat
  let dayOfYear := day - yearStart (yearOfDay day)
  { era := (days + epochShift) / eraDays
    year := yearOfDay day
    month := monthOfDay dayOfYear
    day := dayOfYear - monthStart (monthOfDay dayOfYear) }

/-- The parts of the day after. -/
def next (p : Parts) : Parts :=
  if p.day + 1 < p.length then { p with day := p.day + 1 }
  else if p.month < 11 then { p with month := p.month + 1, day := 0 }
  else if p.year < 399 then { p with year := p.year + 1, month := 0, day := 0 }
  else ⟨p.era + 1, 0, 0, 0⟩

variable {p : Parts}

theorem date_ofDays (days : Int) : (ofDays days).date = Date.ofDays days := rfl

/-- A month but the last lasts until the next begins. -/
theorem monthStart_add_length (h : p.month < 11) :
    monthStart p.month + p.length = monthStart (p.month + 1) := by
  obtain ⟨era, year, month, day⟩ := p
  dsimp only at *
  interval_cases month <;> rfl

/-- The last month, February, lasts until the next year begins. -/
theorem yearStart_add_length (h : p.month = 11) :
    yearStart p.year + monthStart 11 + p.length = yearStart (p.year + 1) := by
  have hyear : p.date.year = p.era * 400 + (p.year + 1 : Nat) := by
    simp only [date, h]
    omega
  have hmonth : p.date.month = 2 := by
    simp only [date, h]
    rfl
  have hlength : p.length = if isLeap (p.era * 400 + (p.year + 1 : Nat)) then 29 else 28 := by
    rw [length, hyear, hmonth]
    rfl
  have hstart : monthStart 11 = 337 := rfl
  rw [yearStart_succ p.era, hlength, hstart]
  split <;> omega

theorem length_pos (p : Parts) : 0 < p.length :=
  (by decide : 0 < 28).trans_le (monthLength_bounds _ _).1

/-- A day lies in its month if it comes before the next month and before the next year. -/
theorem day_lt_length_iff (h : p.month < 12) : p.day < p.length ↔
    monthStart p.month + p.day < monthStart (p.month + 1) ∧
      yearStart p.year + monthStart p.month + p.day < yearStart (p.year + 1) := by
  have hshort := yearStart_succ_ge p.year
  have hlong := yearStart_succ_le p.year
  rcases Nat.lt_or_ge p.month 11 with hearly | hlate
  · have hlength := monthStart_add_length hearly
    have hfebruary : monthStart (p.month + 1) ≤ 337 := by
      unfold monthStart
      omega
    omega
  · have hmonth : p.month = 11 := by omega
    have hlength := yearStart_add_length hmonth
    have hstart : monthStart 11 = 337 := rfl
    have hnext : monthStart (11 + 1) = 367 := rfl
    rw [hmonth]
    omega

/-- The parts of a day lie in each other. -/
theorem valid_ofDays (days : Int) : (ofDays days).Valid := by
  obtain ⟨hstart, hnext, hyear⟩ := yearOfDay_bounds (dayOfEra_lt days)
  have hsucc := yearStart_succ_le (yearOfDay ((days + epochShift) % eraDays).toNat)
  obtain ⟨hmonth, htwelve⟩ := monthOfDay_bounds (((days + epochShift) % eraDays).toNat -
    yearStart (yearOfDay ((days + epochShift) % eraDays).toNat)) (by omega)
  refine ⟨hyear, htwelve, (day_lt_length_iff htwelve).mpr ⟨?_, ?_⟩⟩
  · have hbefore := lt_monthStart_succ (((days + epochShift) % eraDays).toNat -
      yearStart (yearOfDay ((days + epochShift) % eraDays).toNat))
    dsimp only [ofDays]
    omega
  · dsimp only [ofDays]
    omega

/-- A day has no other parts. -/
theorem date_eq_ofDays (h : p.Valid) : p.date = Date.ofDays p.days := by
  obtain ⟨hinMonth, hinYear⟩ := (day_lt_length_iff h.month_lt).mp h.day_lt
  have hera : yearStart (p.year + 1) ≤ eraDays := yearStart_mono h.year_lt
  have hshift : p.days + epochShift =
      p.era * eraDays + (yearStart p.year + monthStart p.month + p.day : Nat) := by
    unfold days
    omega
  have hquotient : (p.days + epochShift) / eraDays = p.era := by
    rw [hshift]
    unfold eraDays at *
    omega
  have hremainder : ((p.days + epochShift) % eraDays).toNat =
      yearStart p.year + monthStart p.month + p.day := by
    rw [hshift]
    unfold eraDays at *
    omega
  have hyear : yearOfDay (yearStart p.year + monthStart p.month + p.day) = p.year :=
    yearOfDay_eq (by omega) hinYear (by omega)
  have hmonth : monthOfDay (monthStart p.month + p.day) = p.month :=
    monthOfDay_eq hinMonth
  have hofYear : yearStart p.year + monthStart p.month + p.day - yearStart p.year =
      monthStart p.month + p.day := by omega
  have hparts : ofDays p.days = p := by
    simp only [ofDays, hquotient, hremainder, hyear, hofYear, hmonth, Nat.add_sub_cancel_left]
  rw [← date_ofDays, hparts]

/-- The four ways in which a day is followed by the next, each with the length of what has ended. -/
theorem next_cases (h : p.Valid) :
    (p.day + 1 < p.length ∧ p.next = { p with day := p.day + 1 }) ∨
      (p.day + 1 = p.length ∧ p.month < 11 ∧ p.next = { p with month := p.month + 1, day := 0 }) ∨
      (p.day + 1 = p.length ∧ p.month = 11 ∧ p.year < 399 ∧
        p.next = { p with year := p.year + 1, month := 0, day := 0 }) ∨
      (p.day + 1 = p.length ∧ p.month = 11 ∧ p.year = 399 ∧ p.next = ⟨p.era + 1, 0, 0, 0⟩) := by
  obtain ⟨hyear, hmonth, hday⟩ := h
  unfold next
  split
  · exact .inl ⟨‹_›, rfl⟩
  · split
    · exact .inr (.inl ⟨by omega, ‹_›, rfl⟩)
    · split
      · exact .inr (.inr (.inl ⟨by omega, by omega, ‹_›, rfl⟩))
      · exact .inr (.inr (.inr ⟨by omega, by omega, by omega, rfl⟩))

/-- The next day has parts of its own. -/
theorem Valid.next (h : p.Valid) : p.next.Valid := by
  obtain ⟨hyear, hmonth, hday⟩ := h
  rcases next_cases ⟨hyear, hmonth, hday⟩ with ⟨hlt, hnext⟩ | ⟨-, hearly, hnext⟩ |
    ⟨-, -, hearly, hnext⟩ | ⟨-, -, -, hnext⟩
  · rw [hnext]
    exact ⟨hyear, hmonth, hlt⟩
  · rw [hnext]
    exact ⟨hyear, Nat.succ_lt_succ hearly, length_pos _⟩
  · rw [hnext]
    exact ⟨Nat.succ_lt_succ hearly, Nat.zero_lt_succ _, length_pos _⟩
  · rw [hnext]
    exact ⟨Nat.zero_lt_succ _, Nat.zero_lt_succ _, length_pos _⟩

/-- It is one day later. -/
theorem days_next (h : p.Valid) : p.next.days = p.days + 1 := by
  have hmarch : monthStart 0 = 0 := rfl
  have hfirst : yearStart 0 = 0 := rfl
  rcases next_cases h with ⟨-, hnext⟩ | ⟨hlast, hearly, hnext⟩ | ⟨hlast, hfebruary, -, hnext⟩ |
    ⟨hlast, hfebruary, hyear, hnext⟩
  · rw [hnext]
    simp only [days]
    omega
  · have hlength := monthStart_add_length hearly
    rw [hnext]
    simp only [days]
    omega
  · have hlength := yearStart_add_length hfebruary
    rw [hnext]
    simp only [days, hmarch, hfebruary]
    omega
  · have hlength := yearStart_add_length hfebruary
    have hera : yearStart (399 + 1) = eraDays := rfl
    rw [hyear] at hlength
    rw [hnext]
    simp only [days, hmarch, hfirst, hfebruary, hyear, Int.add_mul]
    omega

/-- Its date is the next. -/
theorem date_next (h : p.Valid) : p.next.date = p.date.next := by
  have hmonth := h.month_lt
  rcases next_cases h with ⟨hlt, hnext⟩ | ⟨hlast, hearly, hnext⟩ | ⟨hlast, hfebruary, -, hnext⟩ |
    ⟨hlast, hfebruary, hyear, hnext⟩
  · have hday : p.date.day < monthLength p.date.year p.date.month := hlt
    rw [hnext, Date.next, if_pos hday]
    rfl
  all_goals
    have hday : ¬ p.date.day < monthLength p.date.year p.date.month := hlast.not_lt
    rw [hnext, Date.next, if_neg hday]
    simp only [date]
    split_ifs <;> simp only [Date.mk.injEq, true_and, and_true] <;> omega

/-- The parts of a day are of that day. -/
theorem days_ofDays (days : Int) : (ofDays days).days = days :=
  (toDays_of_parts _ _ (valid_ofDays days).year_lt (valid_ofDays days).month_lt).symm.trans
    (toDays_ofDays days)

/-- Parts have a date that is in the calendar. -/
theorem Valid.date (h : p.Valid) : p.date.Valid := by
  have hmonth := h.month_lt
  refine ⟨?_, ?_, Nat.succ_pos p.day, h.day_lt⟩ <;> simp only [Parts.date] <;> split <;> omega

end Parts

/-! ## Dates one after the other -/

/-- Every day has a date that is in the calendar. -/
theorem valid_ofDays (days : Int) : (ofDays days).Valid :=
  (Parts.valid_ofDays days).date

/-- The date of the day after a day is the date after its date. -/
theorem ofDays_add_one (days : Int) : ofDays (days + 1) = (ofDays days).next := by
  have hparts := Parts.valid_ofDays days
  calc ofDays (days + 1)
      = ofDays ((Parts.ofDays days).days + 1) := by rw [Parts.days_ofDays]
    _ = ofDays (Parts.ofDays days).next.days := by rw [Parts.days_next hparts]
    _ = (Parts.ofDays days).next.date := (Parts.date_eq_ofDays hparts.next).symm
    _ = (ofDays days).next := Parts.date_next hparts

/-- The date of the day before a day is the date before its date. -/
theorem ofDays_sub_one (days : Int) : ofDays (days - 1) = (ofDays days).previous := by
  rw [← previous_next (valid_ofDays (days - 1)), ← ofDays_add_one, Int.sub_add_cancel]

/-- The date that is computed for a day falls on it. -/
theorem fallsOn_ofDays (days : Int) : FallsOn (ofDays days) days := by
  induction days using Int.induction_on with
  | zero => exact .epoch
  | succ n ih =>
    rw [ofDays_add_one]
    exact .next ih
  | pred n ih =>
    rw [ofDays_sub_one]
    exact .previous ih

/-- No other date falls on a day, so the date of a day is the one that is computed. -/
theorem fallsOn_iff : FallsOn d day ↔ d = ofDays day := by
  constructor
  · intro h
    induction h with
    | epoch => rfl
    | next _ ih => rw [ih, ofDays_add_one]
    | previous _ ih => rw [ih, ofDays_sub_one]
  · rintro rfl
    exact fallsOn_ofDays day

/-- There is a year zero. -/
example : ofDays (-719529) = ⟨-1, 12, 31⟩ ∧ ofDays (-719528) = ⟨0, 1, 1⟩ := by decide

/-! ## Dates as numbers -/

/-- The digits of a date without what stands between them, two for the month and two for the day,
read as one number. -/
def number (d : Date) : Int := (d.year * 100 + d.month) * 100 + d.day

theorem number_lt_number_next (h : d.Valid) : d.number < d.next.number := by
  have hday := h.day_le_31
  have hmonth := h.month_le
  unfold next
  split
  · simp only [number]
    omega
  · split <;> simp only [number] <;> omega

/-- Later days have larger dates. -/
theorem number_ofDays_lt {m n : Int} (h : m < n) : (ofDays m).number < (ofDays n).number := by
  have hstep : ∀ days, (ofDays days).number < (ofDays (days + 1)).number := by
    intro days
    rw [ofDays_add_one]
    exact number_lt_number_next (valid_ofDays days)
  exact strictMono_int_of_lt_succ (f := fun days => (ofDays days).number) hstep h

end Date

end DaemonKeeper.Calendar
