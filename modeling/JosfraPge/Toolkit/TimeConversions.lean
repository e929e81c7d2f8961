import JosfraPge.Toolkit.TimeCheck

/-!
# From one time code to the other

`PGS_TD_ASCIItime_AtoB` and `PGS_TD_ASCIItime_BtoA` turn a time in one code into the other, and copy what
follows the date.

* `asciiTimeAtoB_eq`, `asciiTimeBtoA_eq`: what becomes of the date;
* `conversions_safe`: neither looks outside its table of days;
* `asciiTimeAtoB_BtoA`: from code B to code A and back is the identity;
* `asciiTimeBtoA_AtoB`: from code A to code B and back, when it is, and what it is else.
-/

namespace JosfraPge.Toolkit.TimeConversions

open JosfraPge.Foundation
open JosfraPge.Foundation.LineText
open JosfraPge.Foundation.IntLiteral
open JosfraPge.Foundation.TimeFormat
open JosfraPge.Foundation.FixedLayout
open JosfraPge.Toolkit.AsciiTime
open JosfraPge.Toolkit.TimeCheck

/-! ## The conversions -/

/-- The days of a common year by the end of each month. -/
def days : List ℕ := [31, 59, 90, 120, 151, 181, 212, 243, 273, 304, 334, 365]

/-- `leapYear`, as the conversions determine it. -/
def leapYearOf (year : ℕ) : ℕ :=
  let leapYear := if year % 4 = 0 then 1 else 0
  if year % 100 = 0 then (if year % 400 = 0 then 1 else 0) else leapYear

/-- The day of the year; `none` where the array ends. -/
def dayOfYear (year month day : ℕ) : Option ℕ :=
  if month < 3 then some (if month = 1 then day else 31 + day)
  else (days[month - 2]?).map fun before => before + leapYearOf year + day

/-- The loop that looks for the month; `none` where the array ends. -/
def seekMonth (leapYear doy : ℕ) : ℕ → List ℕ → Option ℕ
  | _, [] => none
  | month, total :: totals =>
      if total + leapYear < doy then seekMonth leapYear doy (month + 1) totals else some month

/-- The month and day of a day of the year. -/
def monthAndDay (year doy : ℕ) : Option (ℕ × ℕ) :=
  if doy < 32 then some (1, doy)
  else (seekMonth (leapYearOf year) doy 2 (days.drop 1)).bind fun month =>
    if month = 2 then some (month, doy - 31)
    else (days[month - 2]?).map fun before => (month, doy - before - leapYearOf year)

/-- `PGS_TD_ASCIItime_AtoB` -/
def asciiTimeAtoB (asciiUTC : Text) : Except Fault Text :=
  match timeCheck asciiUTC with
  | .ok .a =>
      let values := sscanf calendarConversions asciiUTC
      let year := values.getD 0 0
      match dayOfYear year (values.getD 1 0) (values.getD 2 0) with
      | some doy => .ok (zeroPadded 4 year ++ '-' :: zeroPadded 3 doy ++ asciiUTC.drop 10)
      | none => .error .outOfArray
  | .ok .b => .error .format
  | .error fault => .error fault

/-- `PGS_TD_ASCIItime_BtoA` -/
def asciiTimeBtoA (asciiUTC : Text) : Except Fault Text :=
  match timeCheck asciiUTC with
  | .ok .b =>
      let values := sscanf yearDayConversions asciiUTC
      let year := values.getD 0 0
      match monthAndDay year (values.getD 1 0) with
      | some (month, day) =>
          .ok (zeroPadded 4 year ++ '-' :: zeroPadded 2 month ++ '-' :: zeroPadded 2 day ++ asciiUTC.drop 8)
      | none => .error .outOfArray
  | .ok .a => .error .format
  | .error fault => .error fault

/-! ## Days of the year -/

theorem leapYearOf_eq (year : ℕ) :
    leapYearOf year = if CivilCalendar.isLeap year then 1 else 0 := by
  simp only [leapYearOf, CivilCalendar.isLeap_iff]
  split_ifs <;> omega

open CivilCalendar in
theorem days_getElem? :
    ∀ month < 14, 2 ≤ month → days[month - 2]? = some (daysBeforeMonth false month) := by
  decide

open CivilCalendar in
theorem daysBeforeMonth_leap : ∀ leap : Bool, ∀ month < 14, 3 ≤ month →
    daysBeforeMonth leap month = daysBeforeMonth false month + if leap then 1 else 0 := by
  decide

section YearDays

open CivilCalendar

variable (year : ℕ) {month day : ℕ}

theorem dayOfYear_eq (hpos : 1 ≤ month) (hle : month ≤ 12) (day : ℕ) :
    dayOfYear year month day = some (daysBeforeMonth (isLeap year) month + day) := by
  unfold dayOfYear
  by_cases hshort : month < 3
  · rw [if_pos hshort]
    interval_cases month
    · exact congrArg some (Nat.zero_add day).symm
    · rfl
  · rw [if_neg hshort, days_getElem? month (by omega) (by omega), Option.map_some, leapYearOf_eq,
      daysBeforeMonth_leap (isLeap year) month (by omega) (by omega)]

/-- The search stops at the month of the day, wherever before it it starts. -/
theorem seekMonth_eq (leap : Bool) (doy : ℕ) (hmonth : month ≤ 12)
    (hafter : daysBeforeMonth leap month < doy) (hdoy : doy ≤ daysBeforeMonth leap (month + 1)) :
    ∀ k, k + 2 ≤ month →
      seekMonth (if leap then 1 else 0) doy (month - k) (days.drop (month - k - 1)) = some month := by
  intro k
  have htotal : ∀ m, 2 ≤ m → m ≤ 12 →
      ∃ total, days.drop (m - 1) = total :: days.drop m ∧
        total + (if leap then 1 else 0) = daysBeforeMonth leap (m + 1) := by
    intro m hm hm'
    have hget := days_getElem? (m + 1) (by omega) (by omega)
    have hindex : m + 1 - 2 = m - 1 := by omega
    rw [hindex] at hget
    obtain ⟨hin, hget⟩ := List.getElem?_eq_some_iff.1 hget
    have hleap := daysBeforeMonth_leap leap (m + 1) (by omega) (by omega)
    refine ⟨daysBeforeMonth false (m + 1), ?_, hleap.symm⟩
    rw [List.drop_eq_getElem_cons hin, hget, Nat.sub_add_cancel (by omega)]
  induction k with
  | zero =>
      intro hk
      obtain ⟨total, hdrop, hsum⟩ := htotal month (by omega) hmonth
      rw [Nat.sub_zero, hdrop, seekMonth, hsum, if_neg (by omega)]
  | succ k ih =>
      intro hk
      obtain ⟨total, hdrop, hsum⟩ := htotal (month - (k + 1)) (by omega) (by omega)
      have hnext : month - (k + 1) + 1 = month - k := by omega
      have hindex : month - (k + 1) = month - k - 1 := by omega
      have hbefore : daysBeforeMonth leap (month - k) ≤ daysBeforeMonth leap month :=
        Date.daysBeforeMonth_mono leap (by omega) (by omega)
      rw [hdrop, seekMonth, hsum, hnext, if_pos (by omega), hindex]
      exact ih (by omega)

/-- **The month is found**, for a day that is in it, and in January also for the day before its first. -/
theorem monthAndDay_eq (hpos : 1 ≤ month) (hle : month ≤ 12) (hday : day ≤ daysInMonth year month)
    (hfirst : 1 ≤ day ∨ month = 1) :
    monthAndDay year (daysBeforeMonth (isLeap year) month + day) = some (month, day) := by
  have hlast : daysBeforeMonth (isLeap year) (month + 1)
      = daysBeforeMonth (isLeap year) month + daysInMonth year month := daysBeforeMonth_succ _ hpos
  unfold monthAndDay
  by_cases hone : month = 1
  · subst hone
    have hday : day ≤ 31 := hday
    have hbefore : daysBeforeMonth (isLeap year) 1 = 0 := rfl
    rw [hbefore, Nat.zero_add, if_pos (by omega)]
  · have hjanuary : daysBeforeMonth (isLeap year) 2 = 31 := rfl
    have hmono : daysBeforeMonth (isLeap year) 2 ≤ daysBeforeMonth (isLeap year) month :=
      Date.daysBeforeMonth_mono _ (by omega) (by omega)
    have hseek := seekMonth_eq (isLeap year) (daysBeforeMonth (isLeap year) month + day) hle
      (by omega) (by omega) (month - 2) (by omega)
    have htwo : month - (month - 2) = 2 := by omega
    rw [htwo] at hseek
    rw [if_neg (by omega), leapYearOf_eq, hseek, Option.bind_some]
    by_cases hfebruary : month = 2
    · rw [if_pos hfebruary, hfebruary, hjanuary, Nat.add_sub_cancel_left]
    · have hleap := daysBeforeMonth_leap (isLeap year) month (by omega) (by omega)
      rw [if_neg hfebruary, days_getElem? month (by omega) (by omega), Option.map_some, hleap]
      congr 2
      omega

/-- Every day of the year, and the zeroth, is of the form the search expects. -/
theorem exists_monthAndDay {doy : ℕ} (h : doy ≤ yearLength (isLeap year)) :
    ∃ month day, 1 ≤ month ∧ month ≤ 12 ∧ day ≤ daysInMonth year month ∧ (1 ≤ day ∨ month = 1) ∧
      doy = daysBeforeMonth (isLeap year) month + day := by
  rcases Nat.eq_zero_or_pos doy with rfl | hpos
  · exact ⟨1, 0, by omega, by omega, Nat.zero_le _, Or.inr rfl, rfl⟩
  · obtain ⟨hm, hm', hd, hd', hsum⟩ := splitYearDay_spec' (isLeap year) (k := doy - 1) (by omega)
    exact ⟨_, _, hm, hm', hd', Or.inl hd, by omega⟩

end YearDays

/-! ## There and back -/

/-- The characters of the time of day that are looked at. -/
def clockPart (places : ℕ) (rest : Text) : Text := (rest.take places).takeWhile (· ≠ 'Z')

theorem not_Z_mem_dateText {year : ℕ} {d : DayField} : ∀ c ∈ dateText year d, c ≠ 'Z' := by
  have hdigits : ∀ {width n : ℕ} {c : Char}, c ∈ padDigits width n → c ≠ 'Z' := fun h =>
    not_separator_of_isDigit (isDigit_of_mem_padDigits h) rfl
  intro c hc
  cases d with
  | calendar month day =>
      simp only [dateText, DayField.text, List.mem_append, List.mem_cons] at hc
      rcases hc with hc | rfl | hc | rfl | hc
      · exact hdigits hc
      · decide
      · exact hdigits hc
      · decide
      · exact hdigits hc
  | yearDay doy =>
      simp only [dateText, DayField.text, List.mem_append, List.mem_cons] at hc
      rcases hc with hc | rfl | hc
      · exact hdigits hc
      · decide
      · exact hdigits hc

theorem checkedPart_date (year : ℕ) (d : DayField) (rest : Text) :
    checkedPart (dateText year d ++ rest)
      = dateText year d ++ clockPart (27 - d.format.dateLength) rest := by
  have hlen := length_dateText year d
  have hshort : (dateText year d).length ≤ 27 := by
    have hbounds := dateLength_bounds d.format
    omega
  unfold checkedPart clockPart
  rw [List.take_append, List.take_of_length_le hshort, hlen, List.takeWhile_append_of_pos]
  intro c hc
  exact decide_eq_true (not_Z_mem_dateText c hc)

/-- **A time is a date and a rest that starts with a time of day.** -/
theorem timeCheck_split {s : Text} {format : Format} :
    timeCheck s = .ok format ↔ ∃ (d : DateCode) (c : Clock) (rest : Text), d.format = format ∧ c.Proper ∧
      s = d.text ++ rest ∧ clockPart (27 - format.dateLength) rest = c.text := by
  constructor
  · intro h
    obtain ⟨d, c, rfl, hc, hpart⟩ := exists_of_timeCheck h
    have hpre : d.text <+: s := by
      have hchecked : checkedPart s <+: s := (List.takeWhile_prefix _).trans (List.take_prefix 27 s)
      rw [hpart] at hchecked
      exact (List.prefix_append _ _).trans hchecked
    obtain ⟨rest, rfl⟩ := hpre
    rw [DateCode.text, checkedPart_date] at hpart
    exact ⟨d, c, rest, rfl, hc, rfl, List.append_cancel_left hpart⟩
  · rintro ⟨d, c, rest, rfl, hc, rfl, hclock⟩
    apply timeCheck_text hc
    rw [DateCode.text, checkedPart_date]
    exact congrArg _ hclock

/-- The same day, by year. -/
def yearDayOf (year month day : ℕ) : DayField :=
  .yearDay (CivilCalendar.daysBeforeMonth (CivilCalendar.isLeap year) month + day)

theorem proper_yearDayOf {year month day : ℕ} (h : (DayField.calendar month day).Proper year) :
    (yearDayOf year month day).Proper year := by
  obtain ⟨hpos, hle, hday⟩ := h
  have hmonth := CivilCalendar.daysBeforeMonth_succ (CivilCalendar.isLeap year) hpos
  have hyear := CivilCalendar.Date.daysBeforeMonth_mono (CivilCalendar.isLeap year) (m := month + 1)
    (n := 13) (Nat.le_add_left 1 month) (Nat.succ_le_succ hle)
  have hend := CivilCalendar.daysBeforeMonth_december (CivilCalendar.isLeap year)
  have hlast : CivilCalendar.daysBeforeMonth (CivilCalendar.isLeap year) 13
      = CivilCalendar.daysBeforeMonth (CivilCalendar.isLeap year) 12 + 31 := rfl
  show CivilCalendar.daysBeforeMonth (CivilCalendar.isLeap year) month + day ≤ _
  unfold CivilCalendar.daysInMonth at hday
  omega

section Conversions

variable {year month day : ℕ} {rest : Text}

theorem asciiTimeAtoB_eq (hyear : year < 10000) (hd : (DayField.calendar month day).Proper year)
    (hcheck : timeCheck (dateText year (.calendar month day) ++ rest) = .ok .a) :
    asciiTimeAtoB (dateText year (.calendar month day) ++ rest)
      = .ok (dateText year (yearDayOf year month day) ++ rest) := by
  have hvalues : sscanf calendarConversions (dateText year (.calendar month day) ++ rest)
      = [year, month, day] := sscanf_calendar [] rest hyear hd.fits.1 hd.fits.2
  have hdoy : CivilCalendar.daysBeforeMonth (CivilCalendar.isLeap year) month + day < 10 ^ 3 :=
    (proper_yearDayOf hd).fits
  have hdrop : (dateText year (.calendar month day) ++ rest).drop 10 = rest :=
    List.drop_left' (length_dateText year (.calendar month day))
  unfold asciiTimeAtoB
  rw [hcheck, hvalues]
  simp only [List.getD_cons_zero, List.getD_cons_succ, dayOfYear_eq year hd.1 hd.2.1]
  rw [zeroPadded_eq 4 hyear, zeroPadded_eq 3 hdoy, hdrop]
  rfl

theorem asciiTimeBtoA_eq (hyear : year < 10000) (hd : (DayField.calendar month day).Proper year)
    (hfirst : 1 ≤ day ∨ month = 1)
    (hcheck : timeCheck (dateText year (yearDayOf year month day) ++ rest) = .ok .b) :
    asciiTimeBtoA (dateText year (yearDayOf year month day) ++ rest)
      = .ok (dateText year (.calendar month day) ++ rest) := by
  have hvalues : sscanf yearDayConversions (dateText year (yearDayOf year month day) ++ rest)
      = [year, CivilCalendar.daysBeforeMonth (CivilCalendar.isLeap year) month + day] :=
    sscanf_yearDay [] rest hyear (proper_yearDayOf hd).fits
  have hfound := monthAndDay_eq year hd.1 hd.2.1 hd.2.2 hfirst
  have hdrop : (dateText year (yearDayOf year month day) ++ rest).drop 8 = rest :=
    List.drop_left' (length_dateText year (yearDayOf year month day))
  obtain ⟨hmonth, hday⟩ := hd.fits
  unfold asciiTimeBtoA
  rw [hcheck, hvalues]
  simp only [List.getD_cons_zero, List.getD_cons_succ, hfound]
  rw [zeroPadded_eq 4 hyear, zeroPadded_eq 2 hmonth, zeroPadded_eq 2 hday, hdrop]
  simp [dateText, DayField.text]

end Conversions

/-! ### What the conversions do -/

/-- A time in code A, taken apart. -/
theorem split_a {s : Text} (h : timeCheck s = .ok .a) : ∃ year < 10000, ∃ month day,
    (DayField.calendar month day).Proper year ∧ ∃ (c : Clock) (rest : Text), c.Proper ∧
      s = dateText year (.calendar month day) ++ rest ∧ clockPart 17 rest = c.text := by
  obtain ⟨⟨year, d, hyear, hproper⟩, c, rest, hformat, hc, rfl, hclock⟩ := timeCheck_split.1 h
  cases d with
  | calendar month day => exact ⟨year, hyear, month, day, hproper, c, rest, hc, rfl, hclock⟩
  | yearDay doy => exact absurd hformat (by simp [DateCode.format, DayField.format])

/-- A time in code B, taken apart. -/
theorem split_b {s : Text} (h : timeCheck s = .ok .b) : ∃ year < 10000, ∃ month day,
    (DayField.calendar month day).Proper year ∧ (1 ≤ day ∨ month = 1) ∧ ∃ (c : Clock) (rest : Text),
      c.Proper ∧ s = dateText year (yearDayOf year month day) ++ rest ∧ clockPart 19 rest = c.text := by
  obtain ⟨⟨year, d, hyear, hproper⟩, c, rest, hformat, hc, rfl, hclock⟩ := timeCheck_split.1 h
  cases d with
  | calendar month day => exact absurd hformat (by simp [DateCode.format, DayField.format])
  | yearDay doy =>
      obtain ⟨month, day, hpos, hle, hday, hfirst, rfl⟩ := exists_monthAndDay year hproper
      exact ⟨year, hyear, month, day, ⟨hpos, hle, hday⟩, hfirst, c, rest, hc, rfl, hclock⟩

theorem timeCheck_of_ok_AtoB {s s' : Text} (h : asciiTimeAtoB s = .ok s') : timeCheck s = .ok .a := by
  unfold asciiTimeAtoB at h
  cases hcheck : timeCheck s with
  | error fault => simp [hcheck] at h
  | ok format =>
      cases format with
      | a => rfl
      | b => simp [hcheck] at h

theorem timeCheck_of_ok_BtoA {s s' : Text} (h : asciiTimeBtoA s = .ok s') : timeCheck s = .ok .b := by
  unfold asciiTimeBtoA at h
  cases hcheck : timeCheck s with
  | error fault => simp [hcheck] at h
  | ok format =>
      cases format with
      | a => simp [hcheck] at h
      | b => rfl

theorem timeCheck_ne_outOfArray (s : Text) : timeCheck s ≠ .error .outOfArray := by
  unfold timeCheck checkValues
  split_ifs <;> simp

theorem asciiTimeAtoB_safe (s : Text) : asciiTimeAtoB s ≠ .error .outOfArray ∧
    ∀ s', asciiTimeAtoB s = .ok s' → s'.length + 2 = s.length := by
  by_cases hcheck : timeCheck s = .ok .a
  · obtain ⟨year, hyear, month, day, hd, c, rest, hc, rfl, hclock⟩ := split_a hcheck
    rw [asciiTimeAtoB_eq hyear hd hcheck]
    refine ⟨by simp, ?_⟩
    rintro s' ⟨⟩
    rw [List.length_append, List.length_append, length_dateText, length_dateText]
    show 8 + rest.length + 2 = 10 + rest.length
    omega
  · refine ⟨fun h => ?_, fun s' h => absurd (timeCheck_of_ok_AtoB h) hcheck⟩
    have hne := timeCheck_ne_outOfArray s
    unfold asciiTimeAtoB at h
    cases hfound : timeCheck s with
    | error fault =>
        rw [hfound] at h hne
        exact hne (congrArg Except.error (Except.error.inj h))
    | ok format =>
        cases format with
        | a => exact hcheck hfound
        | b => simp [hfound] at h

theorem asciiTimeBtoA_safe (s : Text) : asciiTimeBtoA s ≠ .error .outOfArray ∧
    ∀ s', asciiTimeBtoA s = .ok s' → s'.length = s.length + 2 := by
  by_cases hcheck : timeCheck s = .ok .b
  · obtain ⟨year, hyear, month, day, hd, hfirst, c, rest, hc, rfl, hclock⟩ := split_b hcheck
    rw [asciiTimeBtoA_eq hyear hd hfirst hcheck]
    refine ⟨by simp, ?_⟩
    rintro s' ⟨⟩
    rw [List.length_append, List.length_append, length_dateText, length_dateText]
    show 10 + rest.length = 8 + rest.length + 2
    omega
  · refine ⟨fun h => ?_, fun s' h => absurd (timeCheck_of_ok_BtoA h) hcheck⟩
    have hne := timeCheck_ne_outOfArray s
    unfold asciiTimeBtoA at h
    cases hfound : timeCheck s with
    | error fault =>
        rw [hfound] at h hne
        exact hne (congrArg Except.error (Except.error.inj h))
    | ok format =>
        cases format with
        | a => simp [hfound] at h
        | b => exact hcheck hfound

/-- **The conversions stay in their arrays**: neither leaves `days`, and a result in code A has two
characters more than the time in code B. -/
theorem conversions_safe (s : Text) :
    asciiTimeAtoB s ≠ .error .outOfArray ∧ asciiTimeBtoA s ≠ .error .outOfArray ∧
      (∀ s', asciiTimeAtoB s = .ok s' → s'.length + 2 = s.length) ∧
      ∀ s', asciiTimeBtoA s = .ok s' → s'.length = s.length + 2 :=
  ⟨(asciiTimeAtoB_safe s).1, (asciiTimeBtoA_safe s).1, (asciiTimeAtoB_safe s).2, (asciiTimeBtoA_safe s).2⟩

/-! ## Back again -/

/-- **From code B to code A and back is the identity**, whatever follows the time in the string. -/
theorem asciiTimeAtoB_BtoA {s s' : Text} (h : asciiTimeBtoA s = .ok s') : asciiTimeAtoB s' = .ok s := by
  have hcheck := timeCheck_of_ok_BtoA h
  obtain ⟨year, hyear, month, day, hd, hfirst, c, rest, hc, rfl, hclock⟩ := split_b hcheck
  rw [asciiTimeBtoA_eq hyear hd hfirst hcheck] at h
  obtain rfl := Except.ok.inj h
  apply asciiTimeAtoB_eq hyear hd
  have hclock' : clockPart 17 rest = c.truncate.text := by
    rw [text_truncate, ← hclock, clockPart, clockPart, List.take_takeWhile, List.take_take]
    rfl
  exact timeCheck_split.2 ⟨⟨year, _, hyear, hd⟩, c.truncate, rest, rfl, hc.truncate, rfl, hclock'⟩

theorem asciiTimeAtoB_BtoA_leapSecond :
    asciiTimeAtoB "1998-12-31T23:59:60Z".toList = .ok "1998-365T23:59:60Z".toList :=
  asciiTimeAtoB_BtoA (by decide +kernel)

/-- Everything up to the end, or the first `Z`, is looked at. -/
def Complete (s : Text) : Prop := s.length ≤ 27 ∨ 'Z' ∈ s.take 27

instance (s : Text) : Decidable (Complete s) :=
  inferInstanceAs (Decidable (s.length ≤ 27 ∨ 'Z' ∈ s.take 27))

theorem clockPart_complete {year month day : ℕ} {rest : Text}
    (h : Complete (dateText year (.calendar month day) ++ rest)) : clockPart 19 rest = clockPart 17 rest := by
  have hlen : (dateText year (.calendar month day)).length = 10 := length_dateText _ _
  unfold clockPart
  rcases h with hshort | hZ
  · rw [List.length_append, hlen] at hshort
    rw [List.take_of_length_le (by omega), List.take_of_length_le (by omega)]
  · rw [List.take_append, hlen, List.mem_append] at hZ
    have hZ : 'Z' ∈ rest.take 17 := by
      rcases hZ with hZ | hZ
      · exact absurd rfl (not_Z_mem_dateText 'Z' (List.mem_of_mem_take hZ))
      · exact hZ
    have hsplit : rest.take (17 + 2) = rest.take 17 ++ (rest.drop 17).take 2 := List.take_add
    show (rest.take (17 + 2)).takeWhile _ = _
    rw [hsplit, List.takeWhile_append, if_neg]
    intro hall
    have hself := List.takeWhile_eq_self_iff.1 ((List.takeWhile_prefix _).eq_of_length hall) 'Z' hZ
    simp at hself

/-- The year, month and day a string in code A gives. -/
def yearOf (s : Text) : ℕ := (sscanf calendarConversions s).getD 0 0

def monthOf (s : Text) : ℕ := (sscanf calendarConversions s).getD 1 0

def dayOf (s : Text) : ℕ := (sscanf calendarConversions s).getD 2 0

/-- The string with the last day of the month before in place of its date. -/
def monthBefore (s : Text) : Text :=
  dateText (yearOf s) (.calendar (monthOf s - 1) (CivilCalendar.daysInMonth (yearOf s) (monthOf s - 1))) ++
    s.drop 10

theorem daysInMonth_pos (year : ℕ) {month : ℕ} (hpos : 1 ≤ month) (hle : month ≤ 12) :
    1 ≤ CivilCalendar.daysInMonth year month := by
  unfold CivilCalendar.daysInMonth
  cases CivilCalendar.isLeap year <;> interval_cases month <;> decide

/-- A day zero is the last day of the month before. -/
theorem yearDayOf_zero (year : ℕ) {month : ℕ} (hpos : 1 ≤ month) :
    yearDayOf year (month + 1) 0 = yearDayOf year month (CivilCalendar.daysInMonth year month) := by
  unfold yearDayOf
  rw [Nat.add_zero, CivilCalendar.daysBeforeMonth_succ (CivilCalendar.isLeap year) hpos]
  rfl

/-- **From code A to code B and back is the identity, but for a day zero**: after January that stands for
the last of the month before, and comes back as that. -/
theorem asciiTimeBtoA_AtoB {s s' : Text} (hcomplete : Complete s) (h : asciiTimeAtoB s = .ok s') :
    (asciiTimeBtoA s' = .ok s ↔ 1 ≤ dayOf s ∨ monthOf s = 1) ∧
      (dayOf s = 0 → monthOf s ≠ 1 → asciiTimeBtoA s' = .ok (monthBefore s)) := by
  have hcheck := timeCheck_of_ok_AtoB h
  obtain ⟨year, hyear, month, day, hd, c, rest, hc, rfl, hclock⟩ := split_a hcheck
  rw [asciiTimeAtoB_eq hyear hd hcheck] at h
  obtain rfl := Except.ok.inj h
  have hvalues : sscanf calendarConversions (dateText year (.calendar month day) ++ rest)
      = [year, month, day] := sscanf_calendar [] rest hyear hd.fits.1 hd.fits.2
  have hcheck' : timeCheck (dateText year (yearDayOf year month day) ++ rest) = .ok .b :=
    timeCheck_split.2 ⟨⟨year, _, hyear, proper_yearDayOf hd⟩, c, rest, rfl, hc, rfl,
      (clockPart_complete hcomplete).trans hclock⟩
  have hyearOf : yearOf (dateText year (.calendar month day) ++ rest) = year :=
    congrArg (fun values => values.getD 0 0) hvalues
  have hmonthOf : monthOf (dateText year (.calendar month day) ++ rest) = month :=
    congrArg (fun values => values.getD 1 0) hvalues
  have hdayOf : dayOf (dateText year (.calendar month day) ++ rest) = day :=
    congrArg (fun values => values.getD 2 0) hvalues
  rw [hmonthOf, hdayOf]
  refine ⟨⟨?_, fun hfirst => asciiTimeBtoA_eq hyear hd hfirst hcheck'⟩, ?_⟩
  · intro hback
    obtain ⟨year', hyear', month', day', hd', hfirst, c', rest', hc', heq, hclock'⟩ := split_b hcheck'
    rw [heq] at hback hcheck'
    have hsame := Except.ok.inj ((asciiTimeBtoA_eq hyear' hd' hfirst hcheck').symm.trans hback)
    have hvalues' : sscanf calendarConversions (dateText year' (.calendar month' day') ++ rest')
        = [year', month', day'] := sscanf_calendar [] rest' hyear' hd'.fits.1 hd'.fits.2
    rw [hsame, hvalues] at hvalues'
    obtain ⟨-, hrest⟩ := List.cons.inj hvalues'
    obtain ⟨rfl, hlast⟩ := List.cons.inj hrest
    obtain ⟨rfl, -⟩ := List.cons.inj hlast
    exact hfirst
  · rintro rfl hmonth
    obtain ⟨before, rfl⟩ := Nat.exists_eq_add_of_le' hd.1
    have hpos : 1 ≤ before := by omega
    have hlast := daysInMonth_pos year hpos (Nat.le_of_succ_le hd.2.1)
    have hdrop : (dateText year (.calendar (before + 1) 0) ++ rest).drop 10 = rest :=
      List.drop_left' (length_dateText year _)
    rw [yearDayOf_zero year hpos] at hcheck' ⊢
    rw [monthBefore, hyearOf, hmonthOf, hdrop]
    exact asciiTimeBtoA_eq hyear ⟨hpos, Nat.le_of_succ_le hd.2.1, le_refl _⟩ (Or.inl hlast) hcheck'

theorem asciiTimeBtoA_AtoB_march : asciiTimeBtoA "2014-059T14:23Z".toList
    = .ok (monthBefore "2014-03-00T14:23Z".toList) :=
  (asciiTimeBtoA_AtoB (s := "2014-03-00T14:23Z".toList) (by decide) (by decide)).2 (by decide)
    (by decide)

example : monthBefore "2014-03-00T14:23Z".toList = "2014-02-28T14:23Z".toList := by
  decide

end JosfraPge.Toolkit.TimeConversions
