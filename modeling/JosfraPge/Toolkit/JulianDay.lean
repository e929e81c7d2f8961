import JosfraPge.Foundation.CivilCalendar

/-!
# Julian day numbers, as the toolkit computes them

`PGS_TD_julday` and `PGS_TD_calday` go from calendar days to Julian day numbers and back in integer
arithmetic, with C's division, which truncates.  A `long` never overflows here; a cast to `PGSt_integer`
keeps the low 32 bits.

* `calday_julday`, `julday_calday`: the two are inverse from 1 March of year −4800 on;
* `julday_ordinal`: they count days as Python's `datetime` does.
-/

namespace JosfraPge.Toolkit.JulianDay

open JosfraPge.Foundation

/-! ## The two functions -/

/-- `(PGSt_integer) x` -/
def toInteger (x : ℤ) : ℤ := (x + 2147483648) % 4294967296 - 2147483648

/-- A calendar day: `year`, `month` and `day`. -/
@[ext]
structure CalendarDay where
  year : ℤ
  month : ℤ
  day : ℤ
deriving DecidableEq

/-- `PGS_TD_julday` -/
def julday (c : CalendarDay) : ℤ :=
  let j1 := (1461 * (c.year + 4800 + (c.month - 14).tdiv 12)).tdiv 4
  let j2 := (367 * (c.month - 2 - (c.month - 14).tdiv 12 * 12)).tdiv 12
  let j3 := (3 * (c.year + 4900 + (c.month - 14).tdiv 12).tdiv 100).tdiv 4
  toInteger (c.day - 32075 + j1 + j2 - j3)

/-- `PGS_TD_calday` -/
def calday (julianDayNum : ℤ) : CalendarDay :=
  let l := julianDayNum + 68569
  let n := (4 * l).tdiv 146097
  let l := l - (146097 * n + 3).tdiv 4
  let year := toInteger ((4000 * (l + 1)).tdiv 1461001)
  let l := l - (1461 * year).tdiv 4 + 31
  let month := toInteger ((80 * l).tdiv 2447)
  let day := toInteger (l - (2447 * month).tdiv 80)
  let l := month.tdiv 11
  { year := toInteger (100 * (n - 49) + year + l), month := toInteger (month + 2 - 12 * l), day := day }

/-! ## Calendar days that exist -/

def IsLeapYear (year : ℤ) : Prop := year % 4 = 0 ∧ (year % 100 ≠ 0 ∨ year % 400 = 0)

instance (year : ℤ) : Decidable (IsLeapYear year) :=
  inferInstanceAs (Decidable (year % 4 = 0 ∧ (year % 100 ≠ 0 ∨ year % 400 = 0)))

def monthDays (year month : ℤ) : ℤ :=
  if month = 2 then (if IsLeapYear year then 29 else 28)
  else if month = 4 ∨ month = 6 ∨ month = 9 ∨ month = 11 then 30 else 31

/-- A day of the proleptic Gregorian calendar. -/
structure CalendarDay.Exists (c : CalendarDay) : Prop where
  month_pos : 1 ≤ c.month
  month_le : c.month ≤ 12
  day_pos : 1 ≤ c.day
  day_le : c.day ≤ monthDays c.year c.month

/-- From 1 March of year −4800 on. -/
def CalendarDay.Counted (c : CalendarDay) : Prop := -4800 < c.year ∨ (c.year = -4800 ∧ 3 ≤ c.month)

/-- The day numbers counted: from 1 March of year −4800 on, until `calday`'s first sum overflows. -/
def Counted (julianDayNum : ℤ) : Prop := -32044 ≤ julianDayNum ∧ julianDayNum + 68569 < 2147483648

/-! ## Years that start in March -/

/-- A day in a year that starts in March: `100 * century + year` is the year, counted from −4900, and
`monthDay` the month, counted from 1, and the day. -/
structure MarchDay where
  century : ℤ
  year : ℤ
  month : ℤ
  day : ℤ

namespace MarchDay

variable (c : MarchDay)

/-- The days of the year before. -/
def yearDay : ℤ := 367 * c.month / 12 + c.day - 31

/-- The days of the century before. -/
def centuryDay : ℤ := 1461 * c.year / 4 + c.yearDay

/-- The day number, less 68569. -/
def number : ℤ := (146097 * c.century + 3) / 4 + c.centuryDay

def calendarDay : CalendarDay where
  year := 100 * (c.century - 49) + c.year + c.month / 11
  month := c.month + 2 - 12 * (c.month / 11)
  day := c.day

/-- Only the last day of a leap year has number 365. -/
structure Exists : Prop where
  century_pos : 1 ≤ c.century
  year_nonneg : 0 ≤ c.year
  year_le : c.year ≤ 99
  month_pos : 1 ≤ c.month
  month_le : c.month ≤ 12
  day_pos : 1 ≤ c.day
  day_le : c.day ≤ if c.month = 2 ∨ c.month = 4 ∨ c.month = 7 ∨ c.month = 9 then 30
    else if c.month = 12 then 29 else 31
  leap : c.yearDay = 365 → c.year % 4 = 3 ∧ (c.year = 99 → c.century % 4 = 0)

variable {c}

theorem Exists.yearDay_bounds (h : c.Exists) : 0 ≤ c.yearDay ∧ c.yearDay ≤ 365 := by
  obtain ⟨-, -, -, hm, hm', hd, hd', -⟩ := h
  unfold yearDay
  split_ifs at hd' <;> omega

/-- The century of a day number. -/
theorem Exists.century_number (h : c.Exists) : 4 * c.number / 146097 = c.century := by
  obtain ⟨hlow, hhigh⟩ := h.yearDay_bounds
  obtain ⟨hc, hy, hy', -, -, -, -, hleap⟩ := h
  unfold number centuryDay
  generalize c.yearDay = e at *
  by_cases he : e = 365
  · have := hleap he
    omega
  · omega

/-- The year of a day of a century. -/
theorem Exists.year_centuryDay (h : c.Exists) : 4000 * (c.centuryDay + 1) / 1461001 = c.year := by
  obtain ⟨hlow, hhigh⟩ := h.yearDay_bounds
  obtain ⟨-, hy, hy', -, -, -, -, hleap⟩ := h
  unfold centuryDay
  generalize c.yearDay = e at *
  by_cases he : e = 365
  · have := hleap he
    omega
  · omega

/-- The month and day of a day of a year. -/
theorem Exists.month_yearDay (h : c.Exists) :
    80 * (c.yearDay + 31) / 2447 = c.month ∧ c.yearDay + 31 - 2447 * c.month / 80 = c.day := by
  obtain ⟨-, -, -, hm, hm', hd, hd', -⟩ := h
  unfold yearDay
  obtain ⟨_, _, month, day⟩ := c
  simp only at *
  interval_cases month <;> simp at hd' <;> omega

theorem Exists.number_nonneg (h : c.Exists) : 36525 ≤ c.number := by
  have hday := h.yearDay_bounds
  obtain ⟨hc, hy, -, -, -, -, -, -⟩ := h
  unfold number centuryDay
  omega

/-- Every day number from 36525 on is that of one of these days. -/
theorem exists_number {l : ℤ} (h : 36525 ≤ l) : ∃ c : MarchDay, c.Exists ∧ c.number = l := by
  obtain ⟨century, hcentury⟩ : ∃ n, n = 4 * l / 146097 := ⟨_, rfl⟩
  obtain ⟨k, hk⟩ : ∃ k, k = l - (146097 * century + 3) / 4 := ⟨_, rfl⟩
  obtain ⟨year, hyear⟩ : ∃ y, y = 4000 * (k + 1) / 1461001 := ⟨_, rfl⟩
  obtain ⟨e, he⟩ : ∃ e, e = k - 1461 * year / 4 := ⟨_, rfl⟩
  obtain ⟨month, hmonth⟩ : ∃ m, m = 80 * (e + 31) / 2447 := ⟨_, rfl⟩
  -- the rounded divisions depend on the century and the year modulo 4
  have hk' : 0 ≤ k ∧ k ≤ 36524 ∧ (k = 36524 → century % 4 = 0) := by
    obtain ⟨q, r, hq, hr, hr'⟩ : ∃ q r, century = 4 * q + r ∧ 0 ≤ r ∧ r ≤ 3 :=
      ⟨century / 4, century % 4, by omega, by omega, by omega⟩
    interval_cases r <;> omega
  have hyear' : 0 ≤ year ∧ year ≤ 99 := by omega
  have he' : 0 ≤ e ∧ e ≤ 365 ∧ (e = 365 → year % 4 = 3 ∧ (year = 99 → k = 36524)) := by
    obtain ⟨q, r, hq, hr, hr'⟩ : ∃ q r, year = 4 * q + r ∧ 0 ≤ r ∧ r ≤ 3 :=
      ⟨year / 4, year % 4, by omega, by omega, by omega⟩
    clear hk hcentury
    interval_cases r <;> omega
  have hmonth' : 1 ≤ month ∧ month ≤ 12 := by omega
  have hsame : 367 * month / 12 = 2447 * month / 80 := by
    obtain ⟨hlow, hhigh⟩ := hmonth'
    interval_cases month <;> rfl
  have hyearDay : yearDay ⟨century, year, month, e + 31 - 2447 * month / 80⟩ = e := by
    unfold yearDay
    show 367 * month / 12 + (e + 31 - 2447 * month / 80) - 31 = e
    omega
  refine ⟨⟨century, year, month, e + 31 - 2447 * month / 80⟩,
    ⟨by show 1 ≤ century; omega, hyear'.1, hyear'.2, hmonth'.1, hmonth'.2, ?_, ?_, ?_⟩, ?_⟩
  · show 1 ≤ e + 31 - 2447 * month / 80
    omega
  · obtain ⟨hlow, hhigh⟩ := hmonth'
    show e + 31 - 2447 * month / 80 ≤ _
    interval_cases month <;> simp <;> omega
  · rw [hyearDay]
    intro hlast
    show year % 4 = 3 ∧ (year = 99 → century % 4 = 0)
    omega
  · unfold number centuryDay
    rw [hyearDay]
    show (146097 * century + 3) / 4 + (1461 * year / 4 + e) = l
    omega

theorem Exists.calendarDay (h : c.Exists) : c.calendarDay.Exists ∧ c.calendarDay.Counted := by
  have hyearDay := h.yearDay_bounds
  obtain ⟨hc, hy, hy', hm, hm', hd, hd', hleap⟩ := h
  obtain ⟨century, year, month, day⟩ := c
  simp only at *
  refine ⟨⟨?_, ?_, hd, ?_⟩, ?_⟩
  · show 1 ≤ month + 2 - 12 * (month / 11)
    omega
  · show month + 2 - 12 * (month / 11) ≤ 12
    omega
  · show day ≤ monthDays (100 * (century - 49) + year + month / 11) (month + 2 - 12 * (month / 11))
    by_cases hfeb : month = 12 ∧ day = 29
    · obtain ⟨rfl, rfl⟩ := hfeb
      have hcond := hleap rfl
      have hyes : IsLeapYear (100 * (century - 49) + year + 1) := by
        unfold IsLeapYear
        omega
      show (29 : ℤ) ≤ monthDays (100 * (century - 49) + year + 1) 2
      rw [monthDays, if_pos rfl, if_pos hyes]
    · unfold monthDays
      interval_cases month <;> simp at hd' hfeb ⊢ <;> omega
  · show -4800 < 100 * (century - 49) + year + month / 11 ∨
      (100 * (century - 49) + year + month / 11 = -4800 ∧ 3 ≤ month + 2 - 12 * (month / 11))
    omega

end MarchDay

theorem toInteger_of_bounds {x : ℤ} (hlow : -2147483648 ≤ x) (hhigh : x < 2147483648) :
    toInteger x = x := by
  unfold toInteger
  omega

theorem calday_march {c : MarchDay} (h : c.Exists) (hnumber : c.number < 2147483648) :
    calday (c.number - 68569) = c.calendarDay := by
  have hlow := h.number_nonneg
  have hday := h.yearDay_bounds
  have hcentury := h.century_number
  have hyear := h.year_centuryDay
  obtain ⟨hmonth, hdom⟩ := h.month_yearDay
  obtain ⟨hc, hy, hy', hm, hm', hd, hd', -⟩ := h
  have hn : (4 * (c.number - 68569 + 68569)).tdiv 146097 = c.century := by
    rw [Int.tdiv_eq_ediv_of_nonneg (by omega), Int.sub_add_cancel]
    exact hcentury
  have hl : c.number - 68569 + 68569 - (146097 * c.century + 3).tdiv 4 = c.centuryDay := by
    rw [Int.tdiv_eq_ediv_of_nonneg (by omega)]
    unfold MarchDay.number
    omega
  have hcday : 0 ≤ c.centuryDay ∧ c.centuryDay ≤ 37000 := by
    unfold MarchDay.centuryDay
    omega
  have hy1 : toInteger ((4000 * (c.centuryDay + 1)).tdiv 1461001) = c.year := by
    rw [Int.tdiv_eq_ediv_of_nonneg (by omega), hyear]
    exact toInteger_of_bounds (by omega) (by omega)
  have hl2 : c.centuryDay - (1461 * c.year).tdiv 4 + 31 = c.yearDay + 31 := by
    rw [Int.tdiv_eq_ediv_of_nonneg (by omega)]
    unfold MarchDay.centuryDay
    omega
  have hm1 : toInteger ((80 * (c.yearDay + 31)).tdiv 2447) = c.month := by
    rw [Int.tdiv_eq_ediv_of_nonneg (by omega), hmonth]
    exact toInteger_of_bounds (by omega) (by omega)
  have hd1 : toInteger (c.yearDay + 31 - (2447 * c.month).tdiv 80) = c.day := by
    rw [Int.tdiv_eq_ediv_of_nonneg (by omega), hdom]
    exact toInteger_of_bounds (by omega) (by split_ifs at hd' <;> omega)
  have hlast : c.month.tdiv 11 = c.month / 11 := Int.tdiv_eq_ediv_of_nonneg (by omega)
  have hbound : c.century ≤ 58800 := by
    unfold MarchDay.number at hnumber
    omega
  unfold calday
  simp only [hn, hl, hy1, hl2, hm1, hd1, hlast]
  ext
  · exact toInteger_of_bounds (by omega) (by omega)
  · exact toInteger_of_bounds (by omega) (by omega)
  · rfl

/-- With no negative number to divide, the divisions round down. -/
theorem julday_eq {c : CalendarDay} {shift : ℤ} (hshift : (c.month - 14).tdiv 12 = shift)
    (hyear : 0 ≤ c.year + 4800 + shift) (hmonth : 0 ≤ c.month - 2 - shift * 12) :
    julday c = toInteger (c.day - 32075 + 1461 * (c.year + 4800 + shift) / 4
      + 367 * (c.month - 2 - shift * 12) / 12 - 3 * ((c.year + 4900 + shift) / 100) / 4) := by
  have hcentury : (c.year + 4900 + shift).tdiv 100 = (c.year + 4900 + shift) / 100 :=
    Int.tdiv_eq_ediv_of_nonneg (by omega)
  unfold julday
  simp only [hshift, hcentury]
  rw [Int.tdiv_eq_ediv_of_nonneg (by omega), Int.tdiv_eq_ediv_of_nonneg (by omega),
    Int.tdiv_eq_ediv_of_nonneg (by omega)]

theorem julday_march {c : MarchDay} (h : c.Exists) (hnumber : c.number < 2147483648) :
    julday c.calendarDay = c.number - 68569 := by
  have hlow := h.number_nonneg
  obtain ⟨hc, hy, hy', hm, hm', -, -, -⟩ := h
  obtain ⟨century, year, month, day⟩ := c
  simp only at *
  have hshift : (month + 2 - 12 * (month / 11) - 14).tdiv 12 = -(month / 11) := by
    interval_cases month <;> rfl
  have hyear : 100 * (century - 49) + year + month / 11 + 4800 + -(month / 11)
      = 100 * (century - 1) + year := by omega
  have hyear' : 100 * (century - 49) + year + month / 11 + 4900 + -(month / 11)
      = 100 * century + year := by omega
  have hmonth : month + 2 - 12 * (month / 11) - 2 - -(month / 11) * 12 = month := by omega
  have heq := julday_eq (c := MarchDay.calendarDay ⟨century, year, month, day⟩) hshift
    (by show 0 ≤ 100 * (century - 49) + year + month / 11 + 4800 + -(month / 11); omega)
    (by show 0 ≤ month + 2 - 12 * (month / 11) - 2 - -(month / 11) * 12; omega)
  rw [heq]
  show toInteger (day - 32075
    + 1461 * (100 * (century - 49) + year + month / 11 + 4800 + -(month / 11)) / 4
    + 367 * (month + 2 - 12 * (month / 11) - 2 - -(month / 11) * 12) / 12
    - 3 * ((100 * (century - 49) + year + month / 11 + 4900 + -(month / 11)) / 100) / 4) = _
  have hdays : 1461 * (100 * (century - 1) + year) / 4 = 36525 * (century - 1) + 1461 * year / 4 := by
    omega
  have hcenturies : (100 * century + year) / 100 = century := by omega
  have hsum : day - 32075 + (36525 * (century - 1) + 1461 * year / 4) + 367 * month / 12
      - 3 * century / 4 = MarchDay.number ⟨century, year, month, day⟩ - 68569 := by
    unfold MarchDay.number MarchDay.centuryDay MarchDay.yearDay
    simp only
    omega
  rw [hyear, hyear', hmonth, hdays, hcenturies, hsum]
  exact toInteger_of_bounds (by omega) (by omega)

/-- A calendar day is one of a year that starts in March. -/
theorem exists_calendarDay {c : CalendarDay} (h : c.Exists) (hcounted : c.Counted) :
    ∃ m : MarchDay, m.Exists ∧ m.calendarDay = c := by
  obtain ⟨year, month, day⟩ := c
  obtain ⟨hm, hm', hd, hd'⟩ := h
  unfold CalendarDay.Counted at hcounted
  simp only at *
  -- the years before March count to the year before
  obtain ⟨back, hback⟩ : ∃ b : ℤ, b = if month ≤ 2 then 1 else 0 := ⟨_, rfl⟩
  have hyear : 0 ≤ year - back + 4800 := by
    split_ifs at hback <;> omega
  refine ⟨⟨(year - back + 4900) / 100, (year - back + 4900) % 100, month - 2 + 12 * back, day⟩,
    ⟨?_, ?_, ?_, ?_, ?_, hd, ?_, ?_⟩, ?_⟩
  · show 1 ≤ (year - back + 4900) / 100
    omega
  · show 0 ≤ (year - back + 4900) % 100
    omega
  · show (year - back + 4900) % 100 ≤ 99
    omega
  · show 1 ≤ month - 2 + 12 * back
    split_ifs at hback <;> omega
  · show month - 2 + 12 * back ≤ 12
    split_ifs at hback <;> omega
  · show day ≤ _
    unfold monthDays at hd'
    subst hback
    interval_cases month <;> simp at hd' ⊢ <;> omega
  · unfold MarchDay.yearDay
    show 367 * (month - 2 + 12 * back) / 12 + day - 31 = 365 → (year - back + 4900) % 100 % 4 = 3 ∧
      ((year - back + 4900) % 100 = 99 → (year - back + 4900) / 100 % 4 = 0)
    intro hlast
    unfold monthDays IsLeapYear at hd'
    subst hback
    interval_cases month <;> simp at hd' hlast ⊢ <;> omega
  · ext
    · show 100 * ((year - back + 4900) / 100 - 49) + (year - back + 4900) % 100
        + (month - 2 + 12 * back) / 11 = year
      split_ifs at hback <;> omega
    · show month - 2 + 12 * back + 2 - 12 * ((month - 2 + 12 * back) / 11) = month
      split_ifs at hback <;> omega
    · rfl

/-! ## There and back -/

/-- Up to this year the sums stay below 2 ^ 31. -/
theorem MarchDay.Exists.number_lt {m : MarchDay} (hm : m.Exists) (hyear : m.calendarDay.year ≤ 5874709) :
    m.number < 2147483648 := by
  have hday := hm.yearDay_bounds
  obtain ⟨hc, hy, hy', hmonth, -, -, -, -⟩ := hm
  have hsame : m.calendarDay.year = 100 * (m.century - 49) + m.year + m.month / 11 := rfl
  rw [hsame] at hyear
  unfold MarchDay.number MarchDay.centuryDay
  omega

/-- **`calday` undoes `julday`.** -/
theorem calday_julday {c : CalendarDay} (h : c.Exists) (hcounted : c.Counted)
    (hyear : c.year ≤ 5874709) : calday (julday c) = c := by
  obtain ⟨m, hm, rfl⟩ := exists_calendarDay h hcounted
  have hnumber := hm.number_lt hyear
  rw [julday_march hm hnumber, calday_march hm hnumber]

theorem calday_julday_leapDay :
    calday (julday ⟨2012, 2, 29⟩) = ⟨2012, 2, 29⟩ :=
  calday_julday ⟨by decide, by decide, by decide, by decide⟩ (Or.inl (by decide)) (by decide)

/-- **`julday` undoes `calday`**, which answers with a day of the calendar. -/
theorem julday_calday {jd : ℤ} (h : Counted jd) :
    julday (calday jd) = jd ∧ (calday jd).Exists ∧ (calday jd).Counted := by
  obtain ⟨hlow, hhigh⟩ := h
  obtain ⟨m, hm, hnumber⟩ := MarchDay.exists_number (l := jd + 68569) (by omega)
  have hjd : jd = m.number - 68569 := by omega
  have hbound : m.number < 2147483648 := by omega
  rw [hjd, calday_march hm hbound, julday_march hm hbound]
  exact ⟨rfl, hm.calendarDay⟩

theorem julday_calday_leapDay : julday (calday 2455987) = 2455987 ∧ (calday 2455987).Exists ∧
    (calday 2455987).Counted :=
  julday_calday ⟨by decide, by decide⟩

/-! ## The same days as `datetime` -/

section Ordinal

variable (d : CivilCalendar.Date)

/-- The date, as the toolkit's three integers. -/
def ofDate : CalendarDay where
  year := d.year
  month := d.month
  day := d.day

theorem day_le_thirtyOne : d.day ≤ 31 := by
  have hday := d.day_le
  unfold CivilCalendar.daysInMonth CivilCalendar.monthLength at hday
  split_ifs at hday <;> omega

theorem isLeapYear_cast (year : ℕ) : IsLeapYear year ↔ CivilCalendar.isLeap year = true := by
  rw [CivilCalendar.isLeap_iff]
  unfold IsLeapYear
  omega

theorem monthDays_cast (year month : ℕ) :
    monthDays year month = CivilCalendar.daysInMonth year month := by
  unfold monthDays CivilCalendar.daysInMonth CivilCalendar.monthLength
  by_cases hl : CivilCalendar.isLeap year = true
  · have hleap := (isLeapYear_cast year).2 hl
    simp only [if_pos hl, if_pos hleap]
    split_ifs <;> omega
  · have hleap := mt (isLeapYear_cast year).1 hl
    simp only [if_neg hl, if_neg hleap]
    split_ifs <;> omega

theorem exists_ofDate : (ofDate d).Exists := by
  obtain ⟨year, month, day, -, -, hm, hm', hd, hd'⟩ := d
  refine ⟨?_, ?_, ?_, ?_⟩
  · show (1 : ℤ) ≤ month
    omega
  · show (month : ℤ) ≤ 12
    omega
  · show (1 : ℤ) ≤ day
    omega
  · show (day : ℤ) ≤ monthDays year month
    rw [monthDays_cast]
    exact Int.ofNat_le.2 hd'

/-- The days before a month, with the leap day counted from March on. -/
theorem daysBeforeMonth_eq (leap : Bool) {month : ℕ} (h : 1 ≤ month) (h' : month ≤ 12) :
    (CivilCalendar.daysBeforeMonth leap month : ℤ)
      = if month ≤ 2 then 31 * ((month : ℤ) - 1)
        else 367 * ((month : ℤ) - 2) / 12 + (if leap = true then 30 else 29) := by
  cases leap <;> interval_cases month <;> rfl

theorem daysBeforeYear_eq {year : ℕ} (h : 1 ≤ year) :
    (CivilCalendar.daysBeforeYear year : ℤ)
      = ((year : ℤ) - 1) * 365 + ((year : ℤ) - 1) / 4 - ((year : ℤ) - 1) / 100
        + ((year : ℤ) - 1) / 400 := by
  unfold CivilCalendar.daysBeforeYear
  omega

/-- The days of the years before, counted from −4800 and from 1. -/
theorem years_eq (year : ℤ) :
    1461 * (year + 4800) / 4 - 3 * ((year + 4900) / 100) / 4
      = 365 * year + year / 4 - year / 100 + year / 400 + 1753164 := by
  have hquarters : 1461 * (year + 4800) / 4 = 365 * year + year / 4 + 1753200 := by omega
  have hcenturies : (year + 4900) / 100 = year / 100 + 49 := by omega
  have hcycles : year / 400 = year / 100 / 4 := by omega
  rw [hquarters, hcenturies, hcycles]
  omega

/-- The leap days up to the end of a year. -/
theorem leapDays_eq (year : ℕ) :
    (year : ℤ) / 4 - year / 100 + year / 400
      = ((year : ℤ) - 1) / 4 - ((year : ℤ) - 1) / 100 + ((year : ℤ) - 1) / 400
        + (if CivilCalendar.isLeap year = true then 1 else 0) := by
  have hleap := isLeapYear_cast year
  unfold IsLeapYear at hleap
  have h4 : (year : ℤ) / 4 = (year - 1) / 4 + if (year : ℤ) % 4 = 0 then 1 else 0 := by
    split_ifs <;> omega
  have h100 : (year : ℤ) / 100 = (year - 1) / 100 + if (year : ℤ) % 100 = 0 then 1 else 0 := by
    split_ifs <;> omega
  have h400 : (year : ℤ) / 400 = (year - 1) / 400 + if (year : ℤ) % 400 = 0 then 1 else 0 := by
    split_ifs <;> omega
  rw [h4, h100, h400]
  by_cases hl : CivilCalendar.isLeap year = true
  · have hyear := hleap.2 hl
    rw [if_pos hl]
    split_ifs <;> omega
  · have hyear := mt hleap.1 hl
    rw [if_neg hl]
    split_ifs <;> omega

/-- The day number in January and February, which `julday` counts to the year before. -/
theorem julday_january (hmonth : d.month ≤ 2) :
    julday (ofDate d) = d.day + 31 * ((d.month : ℤ) - 1) + ((d.year : ℤ) - 1) * 365
      + ((d.year : ℤ) - 1) / 4 - ((d.year : ℤ) - 1) / 100 + ((d.year : ℤ) - 1) / 400 + 1721425 := by
  have hday := day_le_thirtyOne d
  obtain ⟨year, month, day, hy, hy', hm, hm', hd, hd'⟩ := d
  simp only at *
  have hshift : ((month : ℤ) - 14).tdiv 12 = -1 := by
    interval_cases month <;> rfl
  rw [julday_eq hshift (by show (0 : ℤ) ≤ year + 4800 + -1; omega)
    (by show (0 : ℤ) ≤ month - 2 - -1 * 12; omega)]
  show toInteger ((day : ℤ) - 32075 + 1461 * (year + 4800 + -1) / 4 + 367 * (month - 2 - -1 * 12) / 12
    - 3 * ((year + 4900 + -1) / 100) / 4) = _
  have hyears := years_eq ((year : ℤ) - 1)
  have hback : (year : ℤ) - 1 + 4800 = year + 4800 + -1 := by omega
  have hback' : (year : ℤ) - 1 + 4900 = year + 4900 + -1 := by omega
  rw [hback, hback'] at hyears
  have hmonths : (367 * ((month : ℤ) - 2 - -1 * 12)) / 12 = 31 * (month - 1) + 336 := by
    interval_cases month <;> rfl
  have hsum : (day : ℤ) - 32075 + 1461 * (year + 4800 + -1) / 4 + (31 * (month - 1) + 336)
      - 3 * ((year + 4900 + -1) / 100) / 4 = day + 31 * (month - 1) + (year - 1) * 365 + (year - 1) / 4
        - (year - 1) / 100 + (year - 1) / 400 + 1721425 := by omega
  rw [hmonths, hsum]
  clear hsum hyears hback hback'
  exact toInteger_of_bounds (by omega) (by omega)

/-- The day number from March on. -/
theorem julday_fromMarch (hmonth : ¬ d.month ≤ 2) :
    julday (ofDate d) = d.day + 367 * ((d.month : ℤ) - 2) / 12 + (d.year : ℤ) * 365
      + ((d.year : ℤ) / 4 - d.year / 100 + d.year / 400) + 1721089 := by
  have hday := day_le_thirtyOne d
  obtain ⟨year, month, day, hy, hy', hm, hm', hd, hd'⟩ := d
  simp only at *
  have hthree : 3 ≤ month := by omega
  have hshift : ((month : ℤ) - 14).tdiv 12 = 0 := by
    interval_cases month <;> rfl
  rw [julday_eq hshift (by show (0 : ℤ) ≤ year + 4800 + 0; omega)
    (by show (0 : ℤ) ≤ month - 2 - 0 * 12; omega)]
  show toInteger ((day : ℤ) - 32075 + 1461 * (year + 4800 + 0) / 4 + 367 * (month - 2 - 0 * 12) / 12
    - 3 * ((year + 4900 + 0) / 100) / 4) = _
  have hyears := years_eq (year : ℤ)
  rw [zero_mul, sub_zero, add_zero, add_zero]
  have hsum : (day : ℤ) - 32075 + 1461 * (year + 4800) / 4 + 367 * (month - 2) / 12
      - 3 * ((year + 4900) / 100) / 4 = day + 367 * (month - 2) / 12 + year * 365
        + (year / 4 - year / 100 + year / 400) + 1721089 := by omega
  have hmonths : 0 ≤ 367 * ((month : ℤ) - 2) / 12 ∧ 367 * ((month : ℤ) - 2) / 12 ≤ 400 := by omega
  generalize 367 * ((month : ℤ) - 2) / 12 = months at *
  rw [hsum]
  exact toInteger_of_bounds (by omega) (by omega)

/-- **The toolkit and `datetime` number the days alike**, in both directions. -/
theorem julday_ordinal :
    julday (ofDate d) = d.ordinal + 1721425 ∧ calday (d.ordinal + 1721425) = ofDate d := by
  have hordinal : (d.ordinal : ℤ) = CivilCalendar.daysBeforeYear d.year
      + CivilCalendar.daysBeforeMonth (CivilCalendar.isLeap d.year) d.month + d.day := by
    unfold CivilCalendar.Date.ordinal
    push_cast
    rfl
  have hnumber : julday (ofDate d) = d.ordinal + 1721425 := by
    rw [hordinal, daysBeforeYear_eq d.year_pos, daysBeforeMonth_eq _ d.month_pos d.month_le]
    by_cases hmonth : d.month ≤ 2
    · rw [if_pos hmonth, julday_january d hmonth]
      omega
    · rw [if_neg hmonth, julday_fromMarch d hmonth, leapDays_eq]
      split_ifs <;> omega
  have hyear : (ofDate d).year ≤ 9999 := Int.ofNat_le.2 d.year_le
  have hcounted : (ofDate d).Counted := Or.inl (show (-4800 : ℤ) < d.year by omega)
  obtain ⟨m, hm, hdate⟩ := exists_calendarDay (exists_ofDate d) hcounted
  have hlt : m.number < 2147483648 := hm.number_lt (by rw [hdate]; omega)
  refine ⟨hnumber, ?_⟩
  rw [← hnumber, ← hdate, julday_march hm hlt, calday_march hm hlt]

end Ordinal

end JosfraPge.Toolkit.JulianDay
