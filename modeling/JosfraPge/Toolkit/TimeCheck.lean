import JosfraPge.Toolkit.AsciiTime

/-!
# Which strings are times

The values that `sscanf` reads of a string in the places of a time are those of its fields, and the check
compares them with the calendar.  It lets a day zero through.

* `readFields_text`: what is read;
* `checkValues_iff`: what the comparisons amount to;
* `timeCheck_iff`: which strings are times.
-/

namespace JosfraPge.Toolkit.TimeCheck

open JosfraPge.Foundation
open JosfraPge.Foundation.LineText
open JosfraPge.Foundation.IntLiteral
open JosfraPge.Foundation.TimeFormat hiding Fields
open JosfraPge.Foundation.FixedLayout
open JosfraPge.Toolkit.AsciiTime

/-! ## The values of a time -/

/-- What `sscanf` reads from a time. -/
def fieldsOf (year : ℕ) (d : DayField) (c : Clock) : Fields where
  year := year
  month := match d with
    | .calendar month _ => month
    | .yearDay _ => 0
  day := match d with
    | .calendar _ day => day
    | .yearDay doy => doy
  hour := c.values.getD 0 0
  min := c.values.getD 1 0
  sec := c.values.getD 2 0

theorem sscanf_clock (c : Clock) (hc : c.Fits) : sscanf clockConversions c.text = c.values := by
  unfold clockConversions
  cases c with
  | none => rfl
  | hour h =>
      show sscanf _ ('T' :: padDigits 2 h) = [h]
      rw [sscanf_character, ← List.append_nil (padDigits 2 h), sscanf_number _ _ (by omega) hc]
      rfl
  | minute h m =>
      obtain ⟨hh, hm⟩ := hc
      show sscanf _ ('T' :: (padDigits 2 h ++ ':' :: padDigits 2 m)) = [h, m]
      rw [sscanf_character, sscanf_number _ _ (by omega) hh, sscanf_character,
        ← List.append_nil (padDigits 2 m), sscanf_number _ _ (by omega) hm]
      rfl
  | second h m s =>
      obtain ⟨hh, hm, hs⟩ := hc
      show sscanf _ ('T' :: (padDigits 2 h ++ ':' :: (padDigits 2 m ++ ':' :: padDigits 2 s))) = _
      rw [sscanf_character, sscanf_number _ _ (by omega) hh, sscanf_character,
        sscanf_number _ _ (by omega) hm, sscanf_character, sscanf_real_whole _ (by omega) hs]
      rfl
  | fraction h m s digits =>
      obtain ⟨hh, hm, hs, -, hdigits⟩ := hc
      show sscanf _ ('T' :: (padDigits 2 h ++ ':' :: (padDigits 2 m ++ ':' ::
        (padDigits 2 s ++ '.' :: digits)))) = _
      rw [sscanf_character, sscanf_number _ _ (by omega) hh, sscanf_character,
        sscanf_number _ _ (by omega) hm, sscanf_character, sscanf_real_fraction _ (by omega) hs hdigits]
      rfl

section Scanning

variable {year : ℕ} (format : List Conversion) (rest : Text)

theorem sscanf_calendar (hyear : year < 10000) {month day : ℕ} (hmonth : month < 100)
    (hday : day < 100) :
    sscanf (calendarConversions ++ format) (dateText year (.calendar month day) ++ rest)
      = year :: month :: day :: sscanf format rest := by
  show sscanf (.number 4 :: .character '-' :: .number 2 :: .character '-' :: .number 2 :: format) _ = _
  rw [calendar_text, sscanf_number _ _ (by omega) hyear, sscanf_character,
    sscanf_number _ _ (by omega) hmonth, sscanf_character, sscanf_number _ _ (by omega) hday]

theorem sscanf_yearDay (hyear : year < 10000) {doy : ℕ} (hdoy : doy < 1000) :
    sscanf (yearDayConversions ++ format) (dateText year (.yearDay doy) ++ rest)
      = year :: doy :: sscanf format rest := by
  show sscanf (.number 4 :: .character '-' :: .number 3 :: format) _ = _
  rw [yearDay_text, sscanf_number _ _ (by omega) hyear, sscanf_character,
    sscanf_number _ _ (by omega) hdoy]

end Scanning

theorem readFields_text {year : ℕ} (hyear : year < 10000) {d : DayField} (hd : d.Fits) {c : Clock}
    (hc : c.Fits) : readFields d.format (dateText year d ++ c.text) = fieldsOf year d c := by
  cases d with
  | calendar month day =>
      show readFields .a _ = _
      unfold readFields
      simp only
      rw [sscanf_calendar _ _ hyear hd.1 hd.2, sscanf_clock c hc]
      rfl
  | yearDay doy =>
      show readFields .b _ = _
      unfold readFields
      simp only
      rw [sscanf_yearDay _ _ hyear hd, sscanf_clock c hc]
      rfl

theorem leapYearChecked_eq (year : ℕ) :
    leapYearChecked year = if CivilCalendar.isLeap year then 1 else 0 := by
  simp only [leapYearChecked, CivilCalendar.isLeap_iff]
  split_ifs <;> omega

/-- **The checks of month and day.** -/
theorem dayFits_iff (year : ℕ) (d : DayField) (c : Clock) :
    ¬ (d.format = .a ∧ ((fieldsOf year d c).month < 1 ∨ 12 < (fieldsOf year d c).month)) ∧
        dayFits d.format (fieldsOf year d c) = true ↔ d.Proper year := by
  cases d with
  | calendar month day =>
      show ¬ (Format.a = .a ∧ (month < 1 ∨ 12 < month)) ∧ dayFits .a ⟨year, month, day, _, _, _⟩ = true ↔
        1 ≤ month ∧ month ≤ 12 ∧ day ≤ CivilCalendar.daysInMonth year month
      simp only [dayFits, leapYearChecked_eq, CivilCalendar.daysInMonth, CivilCalendar.monthLength]
      by_cases hmonth : 1 ≤ month ∧ month ≤ 12
      · obtain ⟨hpos, hle⟩ := hmonth
        cases CivilCalendar.isLeap year <;> interval_cases month <;> simp
      · simp
        omega
  | yearDay doy =>
      show ¬ (Format.b = .a ∧ _) ∧ decide (doy ≤ 365 + leapYearChecked year) = true ↔
        doy ≤ CivilCalendar.yearLength (CivilCalendar.isLeap year)
      rw [leapYearChecked_eq, CivilCalendar.yearLength]
      cases CivilCalendar.isLeap year <;> simp

/-- **The checks of the values.** -/
theorem checkValues_iff (year : ℕ) (d : DayField) {c : Clock} (hc : c.Fits) {format : Format} :
    checkValues d.format (fieldsOf year d c) = .ok format ↔
      format = d.format ∧ d.Proper year ∧ c.Proper := by
  have hday := dayFits_iff year d c
  constructor
  · intro h
    unfold checkValues at h
    split_ifs at h with hmonth hhour hmin hsec hleap hfits
    refine ⟨(Except.ok.inj h).symm, hday.1 ⟨hmonth, hfits⟩, hc, Nat.le_of_not_lt hhour,
      Nat.le_of_not_lt hmin, Nat.le_of_not_lt hsec, ?_⟩
    intro hlong
    by_contra hnot
    exact hleap ⟨hlong, by tauto⟩
  · rintro ⟨rfl, hd, hproper⟩
    obtain ⟨hmonth, hfits⟩ := hday.2 hd
    unfold checkValues
    have hhour : ¬ 23 < (fieldsOf year d c).hour := Nat.not_lt.2 hproper.hour_le
    have hmin : ¬ 59 < (fieldsOf year d c).min := Nat.not_lt.2 hproper.min_le
    have hsec : ¬ 60999999990 < (fieldsOf year d c).sec := Nat.not_lt.2 hproper.sec_le
    rw [if_neg hmonth, if_neg hhour, if_neg hmin, if_neg hsec, if_neg, if_pos hfits]
    rintro ⟨hlong, hnot⟩
    have hlast := hproper.leapSecond hlong
    exact hnot.elim (fun h => h hlast.1) (fun h => h hlast.2)

/-! ## What is accepted -/

theorem length_checkedPart_le (s : Text) : (checkedPart s).length ≤ 27 :=
  (List.takeWhile_prefix _).length_le.trans (List.length_take_le 27 s)

/-- The format of a date shows at its eighth character. -/
theorem getElem?_dateText (year : ℕ) (d : DayField) (rest : Text) :
    (dateText year d ++ rest)[7]? = some '-' ↔ d.format = .a := by
  cases d with
  | calendar month day =>
      rw [calendar_text]
      simp [padDigits, DayField.format]
  | yearDay doy =>
      rw [yearDay_text]
      simp [padDigits, DayField.format]

theorem formatOf_text {s : Text} {year : ℕ} {d : DayField} {rest : Text}
    (h : checkedPart s = dateText year d ++ rest) : formatOf s = d.format := by
  have hpre : checkedPart s <+: s.take 27 := List.takeWhile_prefix _
  obtain ⟨after, hafter⟩ := hpre
  rw [h, List.append_assoc] at hafter
  have hseven := getElem?_dateText year d (rest ++ after)
  rw [hafter] at hseven
  unfold formatOf
  cases hformat : d.format with
  | a => exact if_pos (hseven.2 hformat)
  | b => exact if_neg fun hdash => by simp [hseven.1 hdash] at hformat

/-- What is accepted is a date and a time of day. -/
theorem exists_of_timeCheck {s : Text} {format : Format} (h : timeCheck s = .ok format) :
    ∃ (d : DateCode) (c : Clock), d.format = format ∧ c.Proper ∧ checkedPart s = d.text ++ c.text := by
  have hshape := shape_iff (formatOf s) (length_checkedPart_le s)
  unfold timeCheck at h
  split_ifs at h with hshort hlen hplaces
  obtain ⟨year, hyear, d, c, hformat, hd, hc, hpart⟩ :=
    hshape.1 ⟨by simpa using hlen, by simpa using hplaces⟩
  rw [hpart, ← hformat, readFields_text hyear hd hc, checkValues_iff year d hc] at h
  obtain ⟨rfl, hproper, hclock⟩ := h
  exact ⟨⟨year, d, hyear, hproper⟩, c, rfl, hclock, hpart⟩

/-- A date and a time of day are accepted. -/
theorem timeCheck_text {s : Text} {d : DateCode} {c : Clock} (hc : c.Proper)
    (hpart : checkedPart s = d.text ++ c.text) : timeCheck s = .ok d.format := by
  obtain ⟨year, d, hyear, hproper⟩ := d
  have hpart : checkedPart s = dateText year d ++ c.text := hpart
  have hformat : formatOf s = d.format := formatOf_text hpart
  obtain ⟨hlen, hplaces⟩ := (shape_iff (formatOf s) (length_checkedPart_le s)).2
    ⟨year, hyear, d, c, hformat.symm, hproper.fits, hc.fits, hpart⟩
  have hlong : ¬ s.length ≤ 5 := by
    have hdate := dateLength_bounds d.format
    have hle : (checkedPart s).length ≤ s.length :=
      (List.takeWhile_prefix _).length_le.trans (List.length_take_le' 27 s)
    rw [hpart, List.length_append, length_dateText] at hle
    omega
  unfold timeCheck
  rw [if_neg hlong, hlen, hplaces, hformat, hpart]
  simp only [Bool.not_true, Bool.false_eq_true, if_false]
  rw [readFields_text hyear hproper.fits hc.fits, checkValues_iff year d hc.fits]
  exact ⟨rfl, hproper, hc⟩

/-- **Which strings are times**: those that give a date and as much of a time of day as they give up to
the first `Z`, or in 27 characters. -/
theorem timeCheck_iff {s : Text} {format : Format} :
    timeCheck s = .ok format ↔ ∃ (d : DateCode) (c : Clock), d.format = format ∧ c.Proper ∧
      checkedPart s = d.text ++ c.text := by
  constructor
  · exact exists_of_timeCheck
  · rintro ⟨d, c, rfl, hc, hpart⟩
    exact timeCheck_text hc hpart

end JosfraPge.Toolkit.TimeCheck
