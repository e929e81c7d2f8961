import JosfraPge.Foundation.CivilCalendar
import JosfraPge.Foundation.FixedLayout

/-!
# Times as text, in CCSDS ASCII Time Code A and B

`PGS_TD_timeCheck` decides whether a string is a time, and in which code.  A string is the bytes before its
terminating null.

* `timeCheck`: the check;
* `Clock`, `DayField`: the times and dates that a string can give;
* `shape_iff`: which strings pass the checks of length and places.

Seconds are read in units of 10⁻⁹; no more than nine digits of a fraction are looked at, and two such
seconds compare as their `double`s do.
-/

namespace JosfraPge.Toolkit.AsciiTime

open JosfraPge.Foundation
open JosfraPge.Foundation.LineText
open JosfraPge.Foundation.IntLiteral
open JosfraPge.Foundation.TimeFormat
open JosfraPge.Foundation.FixedLayout

/-! ## The check -/

/-- CCSDS ASCII Time Code A or B. -/
inductive Format
  | a
  | b
deriving DecidableEq

/-- The field offset in the string. -/
def Format.adjust : Format → ℤ
  | .a => 0
  | .b => -2

inductive Fault
  /-- `PGSTD_E_TIME_FMT_ERROR` -/
  | format
  /-- `PGSTD_E_TIME_VALUE_ERROR` -/
  | value
  /-- A read outside the array `days`, which C leaves undefined. -/
  | outOfArray
deriving DecidableEq

/-- Whether a character is in a place where it belongs. -/
def inPlace (format : Format) (cntr : ℕ) (c : Char) : Bool :=
  if c.isDigit then
    !decide (cntr = 4 ∨ (cntr = 7 ∧ format = .a) ∨ cntr = 10 + format.adjust ∨
      cntr = 13 + format.adjust ∨ cntr = 16 + format.adjust ∨ cntr = 19 + format.adjust)
  else if c = '-' then decide (cntr = 4 ∨ (cntr = 7 ∧ format = .a))
  else if c = 'T' then decide ((cntr : ℤ) = 10 + format.adjust)
  else if c = ':' then decide (cntr = 13 + format.adjust ∨ cntr = 16 + format.adjust)
  else if c = '.' then decide ((cntr : ℤ) = 19 + format.adjust)
  else false

/-- The loop over the characters. -/
def allInPlace (format : Format) : ℕ → Text → Bool
  | _, [] => true
  | cntr, c :: cs => inPlace format cntr c && allInPlace format (cntr + 1) cs

/-- A string shorter than a full one must stop where a field does. -/
def lengthFits (format : Format) (length : ℕ) : Bool :=
  21 ≤ length - format.adjust || length - format.adjust = 10 || length - format.adjust = 13 ||
    length - format.adjust = 16 || length - format.adjust = 19

/-- The values `PGS_TD_timeCheck` reads; code B has no month. -/
@[ext]
structure Fields where
  year : ℕ
  month : ℕ
  day : ℕ
  hour : ℕ
  min : ℕ
  sec : ℕ

/-- `T%2d:%2d:%lfZ` -/
def clockConversions : List Conversion :=
  [.character 'T', .number 2, .character ':', .number 2, .character ':', .real 9, .character 'Z']

/-- `%4d-%2d-%2d` -/
def calendarConversions : List Conversion :=
  [.number 4, .character '-', .number 2, .character '-', .number 2]

/-- `%4d-%3d` -/
def yearDayConversions : List Conversion := [.number 4, .character '-', .number 3]

/-- What the two `sscanf` calls read; a field that is not reached keeps its zero. -/
def readFields (format : Format) (tempTime : Text) : Fields :=
  match format with
  | .a =>
      let values := sscanf (calendarConversions ++ clockConversions) tempTime
      ⟨values.getD 0 0, values.getD 1 0, values.getD 2 0, values.getD 3 0, values.getD 4 0,
        values.getD 5 0⟩
  | .b =>
      let values := sscanf (yearDayConversions ++ clockConversions) tempTime
      ⟨values.getD 0 0, 0, values.getD 1 0, values.getD 2 0, values.getD 3 0, values.getD 4 0⟩

/-- `leapYear`, as the check determines it. -/
def leapYearChecked (year : ℕ) : ℕ :=
  let leapYear := if year % 4 = 0 then 1 else 0
  let leapYear := if year % 100 = 0 then 0 else leapYear
  if year % 400 = 0 then 1 else leapYear

/-- Whether the day is appropriate for the month and year, or for the year. -/
def dayFits (format : Format) (f : Fields) : Bool :=
  match format with
  | .a =>
      if f.month ∈ [1, 3, 5, 7, 8, 10, 12] then f.day ≤ 31
      else if f.month ∈ [4, 6, 9, 11] then f.day ≤ 30
      else if f.month = 2 then f.day ≤ 28 + leapYearChecked f.year
      else false
  | .b => f.day ≤ 365 + leapYearChecked f.year

/-- The checks of the values. -/
def checkValues (format : Format) (f : Fields) : Except Fault Format :=
  if format = .a ∧ (f.month < 1 ∨ 12 < f.month) then .error .value
  else if 23 < f.hour then .error .value
  else if 59 < f.min then .error .value
  else if 60999999990 < f.sec then .error .value
  else if 60000000000 ≤ f.sec ∧ (f.min ≠ 59 ∨ f.hour ≠ 23) then .error .value
  else if dayFits format f then .ok format
  else .error .value

/-- The characters that are looked at: those before the first `Z`, of at most 27. -/
def checkedPart (asciiUTC : Text) : Text := (asciiUTC.take 27).takeWhile (· ≠ 'Z')

/-- The code a string is taken for: the place is looked up in the whole copy, also after a `Z`. -/
def formatOf (asciiUTC : Text) : Format := if (asciiUTC.take 27)[7]? = some '-' then .a else .b

/-- `PGS_TD_timeCheck`, with the code in place of the two statuses of success. -/
def timeCheck (asciiUTC : Text) : Except Fault Format :=
  if asciiUTC.length ≤ 5 then .error .format
  else if !lengthFits (formatOf asciiUTC) (checkedPart asciiUTC).length then .error .format
  else if !allInPlace (formatOf asciiUTC) 0 (checkedPart asciiUTC) then .error .format
  else checkValues (formatOf asciiUTC) (readFields (formatOf asciiUTC) (checkedPart asciiUTC))

/-! ## Times -/

/-- A time of day, as far as it is given. -/
inductive Clock
  | none
  | hour (h : ℕ)
  | minute (h m : ℕ)
  | second (h m s : ℕ)
  | fraction (h m s : ℕ) (digits : Text)

namespace Clock

def text : Clock → Text
  | .none => []
  | .hour h => 'T' :: padDigits 2 h
  | .minute h m => 'T' :: (padDigits 2 h ++ ':' :: padDigits 2 m)
  | .second h m s => 'T' :: (padDigits 2 h ++ ':' :: (padDigits 2 m ++ ':' :: padDigits 2 s))
  | .fraction h m s digits =>
      'T' :: (padDigits 2 h ++ ':' :: (padDigits 2 m ++ ':' :: (padDigits 2 s ++ '.' :: digits)))

/-- The hour, the minute and the second in units of 10⁻⁹, those that are given. -/
def values : Clock → List ℕ
  | .none => []
  | .hour h => [h]
  | .minute h m => [h, m]
  | .second h m s => [h, m, s * 10 ^ 9 + scaled 9 []]
  | .fraction h m s digits => [h, m, s * 10 ^ 9 + scaled 9 digits]

/-- The numbers fit their fields. -/
def Fits : Clock → Prop
  | .none => True
  | .hour h => h < 100
  | .minute h m => h < 100 ∧ m < 100
  | .second h m s => h < 100 ∧ m < 100 ∧ s < 100
  | .fraction h m s digits =>
      h < 100 ∧ m < 100 ∧ s < 100 ∧ digits ≠ [] ∧ ∀ c ∈ digits, c.isDigit = true

/-- The values are those of a time of day; a leap second is the last of its day. -/
structure Proper (c : Clock) : Prop where
  fits : c.Fits
  hour_le : c.values.getD 0 0 ≤ 23
  min_le : c.values.getD 1 0 ≤ 59
  sec_le : c.values.getD 2 0 ≤ 60999999990
  leapSecond : 60000000000 ≤ c.values.getD 2 0 → c.values.getD 1 0 = 59 ∧ c.values.getD 0 0 = 23

end Clock

/-- The day, by month or by year. -/
inductive DayField
  | calendar (month day : ℕ)
  | yearDay (doy : ℕ)

namespace DayField

def format : DayField → Format
  | .calendar _ _ => .a
  | .yearDay _ => .b

def text : DayField → Text
  | .calendar month day => padDigits 2 month ++ '-' :: padDigits 2 day
  | .yearDay doy => padDigits 3 doy

def Fits : DayField → Prop
  | .calendar month day => month < 100 ∧ day < 100
  | .yearDay doy => doy < 1000

/-- Nothing keeps the day from being zero. -/
def Proper (year : ℕ) : DayField → Prop
  | .calendar month day => 1 ≤ month ∧ month ≤ 12 ∧ day ≤ CivilCalendar.daysInMonth year month
  | .yearDay doy => doy ≤ CivilCalendar.yearLength (CivilCalendar.isLeap year)

theorem Proper.fits {year : ℕ} {d : DayField} (h : d.Proper year) : d.Fits := by
  cases d with
  | calendar month day =>
      have hday := daysInMonth_le year month
      obtain ⟨-, hmonth, hle⟩ := h
      exact ⟨by omega, by omega⟩
  | yearDay doy =>
      have hle : doy ≤ CivilCalendar.yearLength (CivilCalendar.isLeap year) := h
      have hyear : CivilCalendar.yearLength (CivilCalendar.isLeap year) ≤ 366 := by
        unfold CivilCalendar.yearLength
        split <;> omega
      show doy < 1000
      omega

end DayField

/-- A year, of four digits, and a day in it. -/
structure DateCode where
  year : ℕ
  dayField : DayField
  year_lt : year < 10000
  proper : dayField.Proper year

/-- The text of a date. -/
def dateText (year : ℕ) (dayField : DayField) : Text := padDigits 4 year ++ '-' :: dayField.text

def DateCode.text (d : DateCode) : Text := dateText d.year d.dayField

def DateCode.format (d : DateCode) : Format := d.dayField.format

/-! ### The time of day in code A -/

/-- The time of day as code A has room for it. -/
def Clock.truncate : Clock → Clock
  | .fraction h m s digits => .fraction h m s (digits.take 7)
  | c => c

theorem text_truncate (c : Clock) : c.truncate.text = c.text.take 17 := by
  cases c with
  | fraction h m s digits => simp [Clock.truncate, Clock.text, padDigits]
  | none => rfl
  | hour h => rfl
  | minute h m => rfl
  | second h m s => rfl

theorem Clock.Proper.truncate {c : Clock} (hc : c.Proper) : c.truncate.Proper := by
  cases c with
  | fraction h m s digits =>
      obtain ⟨⟨hh, hm, hs, hne, hdigits⟩, hhour, hmin, hsec, hleap⟩ := hc
      have hless := scaled_take_le (k := 7) (by omega : 7 ≤ 9) digits
      refine ⟨⟨hh, hm, hs, ?_, fun c hc => hdigits c (List.mem_of_mem_take hc)⟩, hhour, hmin, ?_, ?_⟩
      · rw [Ne, List.take_eq_nil_iff]
        simp [hne]
      · exact (Nat.add_le_add_left hless _).trans hsec
      · exact fun hlong => hleap (hlong.trans (Nat.add_le_add_left hless _))
  | none => exact hc
  | hour h => exact hc
  | minute h m => exact hc
  | second h m s => exact hc

/-! ## The places of the characters -/

/-- The layout of a time of day, with so many places for the fraction. -/
def clockLayout (places : ℕ) : List Place :=
  .separator 'T' :: (digits 2 ++ .separator ':' :: (digits 2 ++ .separator ':' ::
    (digits 2 ++ .separator '.' :: digits places)))

def dayLayout : Format → List Place
  | .a => digits 2 ++ .separator '-' :: (digits 2 ++ clockLayout 7)
  | .b => digits 3 ++ clockLayout 9

def layout (format : Format) : List Place := digits 4 ++ .separator '-' :: dayLayout format

/-- The place the checks of one character amount to. -/
def placeAt (format : Format) (cntr : ℕ) : Place :=
  if cntr = 4 ∨ (cntr = 7 ∧ format = .a) then .separator '-'
  else if (cntr : ℤ) = 10 + format.adjust then .separator 'T'
  else if cntr = 13 + format.adjust ∨ cntr = 16 + format.adjust then .separator ':'
  else if (cntr : ℤ) = 19 + format.adjust then .separator '.'
  else .digit

theorem layout_getElem? :
    ∀ format : Format, ∀ cntr < 27, (layout format)[cntr]? = some (placeAt format cntr)
  | .a => by decide
  | .b => by decide

/-- A character that is no digit is admitted where it is the separator. -/
theorem admits_iff_separator {c : Char} (hc : ¬ c.isDigit = true) (p : Place) :
    p.Admits c ↔ p = .separator c := by
  cases p with
  | digit => simp [Place.Admits, hc]
  | separator d => simp [Place.Admits, eq_comm]

theorem not_separator_of_isDigit {c d : Char} (hc : c.isDigit = true) (hd : d.isDigit = false) : c ≠ d := by
  rintro rfl
  exact absurd (hd.symm.trans hc) (by simp)

theorem inPlace_iff (format : Format) (cntr : ℕ) (c : Char) :
    inPlace format cntr c = true ↔ (placeAt format cntr).Admits c := by
  have hformat : format.adjust = 0 ∧ (format = .a) = True ∨
      format.adjust = -2 ∧ (format = .a) = False := by
    cases format <;> simp [Format.adjust]
  unfold inPlace
  by_cases hdigit : c.isDigit = true
  · unfold placeAt
    rw [if_pos hdigit]
    split_ifs with h1 h2 h3 h4
    · simp [Place.Admits, not_separator_of_isDigit hdigit, or_assoc.symm, h1]
    · simp [Place.Admits, not_separator_of_isDigit hdigit, h2]
    · simp [Place.Admits, not_separator_of_isDigit hdigit, or_assoc.symm, h3]
    · simp [Place.Admits, not_separator_of_isDigit hdigit, h4]
    · simp [Place.Admits, hdigit]
      tauto
  · rw [if_neg hdigit, admits_iff_separator hdigit]
    unfold placeAt
    rcases hformat with ⟨hadjust, ha⟩ | ⟨hadjust, ha⟩
    all_goals
      simp only [hadjust, ha, and_true, and_false, or_false]
      by_cases h1 : c = '-'
      · rw [if_pos h1, h1, decide_eq_true_iff]
        split_ifs <;> simp <;> omega
      by_cases h2 : c = 'T'
      · rw [if_neg h1, if_pos h2, h2, decide_eq_true_iff]
        split_ifs <;> simp <;> omega
      by_cases h3 : c = ':'
      · rw [if_neg h1, if_neg h2, if_pos h3, h3, decide_eq_true_iff]
        split_ifs <;> simp <;> omega
      by_cases h4 : c = '.'
      · rw [if_neg h1, if_neg h2, if_neg h3, if_pos h4, h4, decide_eq_true_iff]
        split_ifs <;> simp <;> omega
      · rw [if_neg h1, if_neg h2, if_neg h3, if_neg h4]
        split_ifs <;> simp [Ne.symm h1, Ne.symm h2, Ne.symm h3, Ne.symm h4]

/-- **The loop over the characters checks the layout.** -/
theorem allInPlace_iff (format : Format) {cntr : ℕ} {s : Text} (hlen : cntr + s.length ≤ 27) :
    allInPlace format cntr s = true ↔ Fills ((layout format).drop cntr) s := by
  induction s generalizing cntr with
  | nil => simp [allInPlace, Fills]
  | cons c cs ih =>
      have hcntr : cntr < 27 := by
        rw [List.length_cons] at hlen
        omega
      have hplace := layout_getElem? format cntr hcntr
      obtain ⟨hin, hget⟩ := List.getElem?_eq_some_iff.1 hplace
      rw [List.drop_eq_getElem_cons hin, hget, allInPlace, Bool.and_eq_true, inPlace_iff,
        ih (by rw [List.length_cons] at hlen; omega)]
      rfl

/-! ## The shape of a time -/

section Parts

variable {ps : List Place} {s : Text} {c : Char}

/-- A separator and two digits. -/
theorem fills_part_inv (h : Fills (.separator c :: (digits 2 ++ ps)) s) (hlen : 3 ≤ s.length) :
    ∃ n < 100, ∃ t, s = c :: (padDigits 2 n ++ t) ∧ s.length = t.length + 3 ∧ Fills ps t := by
  obtain ⟨t, rfl, hfield⟩ := h.separator (by omega)
  rw [List.length_cons] at hlen ⊢
  obtain ⟨n, hn, t, rfl, hrest⟩ := hfield.field (by omega)
  rw [List.length_append, length_padDigits] at hlen ⊢
  exact ⟨n, hn, t, rfl, by omega, hrest⟩

theorem fills_part (n : ℕ) (h : Fills ps s) :
    Fills (.separator c :: (digits 2 ++ ps)) (c :: (padDigits 2 n ++ s)) :=
  fills_separator (fills_field 2 n h)

theorem fills_part_end (n : ℕ) : Fills (.separator c :: (digits 2 ++ ps)) (c :: padDigits 2 n) := by
  have hpart : Fills (.separator c :: (digits 2 ++ ps)) (c :: (padDigits 2 n ++ [])) :=
    fills_part n fills_nil
  rwa [List.append_nil] at hpart

end Parts

/-- The lengths at which a time of day may stop. -/
def ClockLength (n : ℕ) : Prop := n = 0 ∨ n = 3 ∨ n = 6 ∨ n = 9 ∨ 11 ≤ n

theorem length_text_clock (c : Clock) (hc : c.Fits) : ClockLength c.text.length := by
  unfold ClockLength
  cases c with
  | none => exact Or.inl rfl
  | hour h => exact Or.inr (Or.inl rfl)
  | minute h m => exact Or.inr (Or.inr (Or.inl rfl))
  | second h m s => exact Or.inr (Or.inr (Or.inr (Or.inl rfl)))
  | fraction h m s digits =>
      obtain ⟨-, -, -, hne, -⟩ := hc
      have hpos := List.length_pos_iff.2 hne
      simp only [Clock.text, List.length_cons, List.length_append, length_padDigits]
      omega

theorem fills_text_clock (places : ℕ) (c : Clock) (hc : c.Fits) (hlen : c.text.length ≤ 10 + places) :
    Fills (clockLayout places) c.text := by
  cases c with
  | none => exact fills_nil
  | hour h => exact fills_part_end h
  | minute h m => exact fills_part h (fills_part_end m)
  | second h m s => exact fills_part h (fills_part m (fills_part_end s))
  | fraction h m s ds =>
      obtain ⟨-, -, -, -, hdigits⟩ := hc
      simp only [Clock.text, List.length_cons, List.length_append, length_padDigits] at hlen
      have hfraction : Fills (digits places) ds := fills_digits_last.2 ⟨by omega, hdigits⟩
      exact fills_part h (fills_part m (fills_part s (fills_separator hfraction)))

/-- **A string in the places of a time of day is one.** -/
theorem exists_clock {places : ℕ} {s : Text} (hfills : Fills (clockLayout places) s)
    (hstop : ClockLength s.length) : ∃ c : Clock, c.Fits ∧ s = c.text := by
  unfold ClockLength at hstop
  by_cases h0 : s.length = 0
  · exact ⟨.none, trivial, List.length_eq_zero_iff.1 h0⟩
  obtain ⟨hour, hhour, s, rfl, hlen, hfills⟩ := fills_part_inv hfills (by omega)
  by_cases h3 : s.length = 0
  · refine ⟨.hour hour, hhour, ?_⟩
    rw [List.length_eq_zero_iff.1 h3, List.append_nil]
    rfl
  obtain ⟨min, hmin, s, rfl, hlen', hfills⟩ := fills_part_inv hfills (by omega)
  by_cases h6 : s.length = 0
  · refine ⟨.minute hour min, ⟨hhour, hmin⟩, ?_⟩
    rw [List.length_eq_zero_iff.1 h6, List.append_nil]
    rfl
  obtain ⟨sec, hsec, s, rfl, hlen'', hfills⟩ := fills_part_inv hfills (by omega)
  by_cases h9 : s.length = 0
  · refine ⟨.second hour min sec, ⟨hhour, hmin, hsec⟩, ?_⟩
    rw [List.length_eq_zero_iff.1 h9, List.append_nil]
    rfl
  obtain ⟨s, rfl, hfraction⟩ := hfills.separator (by omega)
  have hne : s ≠ [] := by
    rintro rfl
    rw [List.length_singleton] at hlen''
    omega
  exact ⟨.fraction hour min sec s, ⟨hhour, hmin, hsec, hne, (fills_digits_last.1 hfraction).2⟩, rfl⟩

/-- The length of a date. -/
def Format.dateLength : Format → ℕ
  | .a => 10
  | .b => 8

theorem dateLength_bounds (format : Format) : 8 ≤ format.dateLength ∧ format.dateLength ≤ 10 := by
  cases format <;> decide

theorem length_dateText (year : ℕ) (d : DayField) : (dateText year d).length = d.format.dateLength := by
  cases d <;> rfl

theorem calendar_text (year month day : ℕ) (rest : Text) :
    dateText year (.calendar month day) ++ rest
      = padDigits 4 year ++ '-' :: (padDigits 2 month ++ '-' :: (padDigits 2 day ++ rest)) := by
  simp [dateText, DayField.text]

theorem yearDay_text (year doy : ℕ) (rest : Text) :
    dateText year (.yearDay doy) ++ rest = padDigits 4 year ++ '-' :: (padDigits 3 doy ++ rest) := by
  simp [dateText, DayField.text]

theorem lengthFits_iff (format : Format) (n : ℕ) :
    lengthFits format n = true ↔ format.dateLength ≤ n ∧ ClockLength (n - format.dateLength) := by
  unfold ClockLength
  cases format <;> simp [lengthFits, Format.adjust, Format.dateLength] <;> omega

theorem exists_date {format : Format} {time : Text} (hfills : Fills (layout format) time)
    (hlen : format.dateLength ≤ time.length) :
    ∃ year < 10000, ∃ d : DayField, d.format = format ∧ d.Fits ∧ ∃ places rest,
      time = dateText year d ++ rest ∧ Fills (clockLayout places) rest := by
  have hshort := dateLength_bounds format
  obtain ⟨year, hyear, s, rfl, hafterYear⟩ := hfills.field (by omega)
  rw [List.length_append, length_padDigits] at hlen
  obtain ⟨s, rfl, hdays⟩ := hafterYear.separator (by omega)
  rw [List.length_cons] at hlen
  cases format with
  | a =>
      have hlen : 10 ≤ 4 + (s.length + 1) := hlen
      obtain ⟨month, hmonth, s, rfl, hafterMonth⟩ := hdays.field (by omega)
      rw [List.length_append, length_padDigits] at hlen
      obtain ⟨s, rfl, hdayOfMonth⟩ := hafterMonth.separator (by omega)
      rw [List.length_cons] at hlen
      obtain ⟨day, hday, s, rfl, hclock⟩ := hdayOfMonth.field (by omega)
      exact ⟨year, hyear, .calendar month day, rfl, ⟨hmonth, hday⟩, 7, s,
        (calendar_text year month day s).symm, hclock⟩
  | b =>
      have hlen : 8 ≤ 4 + (s.length + 1) := hlen
      obtain ⟨doy, hdoy, s, rfl, hclock⟩ := hdays.field (by omega)
      exact ⟨year, hyear, .yearDay doy, rfl, hdoy, 9, s, (yearDay_text year doy s).symm, hclock⟩

theorem fills_text {year : ℕ} {d : DayField} {c : Clock} (hc : c.Fits)
    (hlen : (dateText year d ++ c.text).length ≤ 27) :
    Fills (layout d.format) (dateText year d ++ c.text) := by
  rw [List.length_append, length_dateText] at hlen
  cases d with
  | calendar month day =>
      have hlen : 10 + c.text.length ≤ 27 := hlen
      have hclock := fills_text_clock 7 c hc (by omega)
      rw [calendar_text]
      exact fills_field 4 year (fills_separator (fills_field 2 month
        (fills_separator (fills_field 2 day hclock))))
  | yearDay doy =>
      have hlen : 8 + c.text.length ≤ 27 := hlen
      have hclock := fills_text_clock 9 c hc (by omega)
      rw [yearDay_text]
      exact fills_field 4 year (fills_separator (fills_field 3 doy hclock))

/-- **Which strings pass the checks of length and places.** -/
theorem shape_iff (format : Format) {time : Text} (hlen : time.length ≤ 27) :
    lengthFits format time.length = true ∧ allInPlace format 0 time = true ↔
      ∃ year < 10000, ∃ (d : DayField) (c : Clock), d.format = format ∧ d.Fits ∧ c.Fits ∧
        time = dateText year d ++ c.text := by
  rw [allInPlace_iff format (by omega), List.drop_zero, lengthFits_iff]
  constructor
  · rintro ⟨⟨hdate, hstop⟩, hfills⟩
    obtain ⟨year, hyear, d, rfl, hd, places, rest, rfl, hclock⟩ := exists_date hfills hdate
    rw [List.length_append, length_dateText, Nat.add_sub_cancel_left] at hstop
    obtain ⟨c, hc, rfl⟩ := exists_clock hclock hstop
    exact ⟨year, hyear, d, c, rfl, hd, hc, rfl⟩
  · rintro ⟨year, -, d, c, rfl, -, hc, rfl⟩
    refine ⟨?_, fills_text hc hlen⟩
    rw [List.length_append, length_dateText, Nat.add_sub_cancel_left]
    exact ⟨Nat.le_add_right _ _, length_text_clock c hc⟩

end JosfraPge.Toolkit.AsciiTime
