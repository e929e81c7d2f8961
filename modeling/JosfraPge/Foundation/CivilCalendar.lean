import Mathlib.Tactic

/-!
# The proleptic Gregorian calendar, as Python's `datetime` computes it

* `Date`, `DateTime`: civil dates and times whose fields are in range, years 1 to 9999;
* `Date.ordinal`, `ofOrdinal`: day numbers, with 1 January of year 1 as day 1;
* `ordinal_tomorrow`: the day number goes up by one from each day to the next, across the ends of
  months and years and the leap days;
* `ordinal_injective`, `ordinal_ofOrdinal`: each day number belongs to one date, and that date is
  the one found for it;
* `DateTime.toMicros`, `ofMicros`, `ofMicros_spec`: a time as microseconds, and back;
* `add_spec`: adding a duration adds its microseconds, or leaves the years that exist;
* `localNow`: the reading of a local clock with an arbitrary offset rule.
-/

namespace JosfraPge.Foundation.CivilCalendar

/-! ## Years and months -/

def isLeap (year : ℕ) : Bool :=
  year % 4 = 0 && (year % 100 ≠ 0 || year % 400 = 0)

/-- The length of a month, given whether its year is a leap year. -/
def monthLength (leap : Bool) (month : ℕ) : ℕ :=
  if month = 2 then (if leap then 29 else 28)
  else if month = 4 ∨ month = 6 ∨ month = 9 ∨ month = 11 then 30 else 31

def daysInMonth (year month : ℕ) : ℕ := monthLength (isLeap year) month

/-- The days of a year before one of its months. -/
def daysBeforeMonth (leap : Bool) : ℕ → ℕ
  | 0 => 0
  | 1 => 0
  | month + 2 => daysBeforeMonth leap (month + 1) + monthLength leap (month + 1)

/-- The days before the first of January of a year. -/
def daysBeforeYear (year : ℕ) : ℕ :=
  (year - 1) * 365 + (year - 1) / 4 - (year - 1) / 100 + (year - 1) / 400

def yearLength (leap : Bool) : ℕ := if leap then 366 else 365

theorem daysBeforeMonth_succ (leap : Bool) {month : ℕ} (h : 1 ≤ month) :
    daysBeforeMonth leap (month + 1) = daysBeforeMonth leap month + monthLength leap month := by
  obtain ⟨k, rfl⟩ := Nat.exists_eq_add_of_le' h
  rfl

theorem daysBeforeMonth_december (leap : Bool) :
    daysBeforeMonth leap 12 + 31 = yearLength leap := by
  cases leap <;> rfl

theorem isLeap_iff (year : ℕ) :
    isLeap year = true ↔ year % 4 = 0 ∧ (year % 100 ≠ 0 ∨ year % 400 = 0) := by
  simp [isLeap]

theorem succ_div_eq (k m : ℕ) :
    (k + 1) / m = k / m + if (k + 1) % m = 0 then 1 else 0 := by
  rw [Nat.succ_div]
  simp only [Nat.dvd_iff_mod_eq_zero]

theorem daysBeforeYear_succ {year : ℕ} (h : 1 ≤ year) :
    daysBeforeYear (year + 1) = daysBeforeYear year + yearLength (isLeap year) := by
  obtain ⟨k, rfl⟩ := Nat.exists_eq_add_of_le' h
  have h4 := succ_div_eq k 4
  have h100 := succ_div_eq k 100
  have h400 := succ_div_eq k 400
  have hsub : k / 100 ≤ k / 4 := Nat.div_le_div_left (by omega) (by omega)
  have hleap := isLeap_iff (k + 1)
  have h1 : (k + 1) % 400 = 0 → (k + 1) % 100 = 0 := by omega
  have h2 : (k + 1) % 100 = 0 → (k + 1) % 4 = 0 := by omega
  show (k + 1) * 365 + (k + 1) / 4 - (k + 1) / 100 + (k + 1) / 400
    = k * 365 + k / 4 - k / 100 + k / 400 + yearLength (isLeap (k + 1))
  rw [h4, h100, h400]
  clear h4 h100 h400
  cases hl : isLeap (k + 1) with
  | true =>
      have hc := hleap.1 hl
      show _ = _ + 366
      generalize k / 4 = a at *
      generalize k / 100 = b at *
      generalize k / 400 = c at *
      split_ifs <;> omega
  | false =>
      have hc : ¬ ((k + 1) % 4 = 0 ∧ ((k + 1) % 100 ≠ 0 ∨ (k + 1) % 400 = 0)) := by
        intro hc
        rw [hleap.2 hc] at hl
        exact Bool.noConfusion hl
      show _ = _ + 365
      generalize k / 4 = a at *
      generalize k / 100 = b at *
      generalize k / 400 = c at *
      split_ifs <;> omega

/-! ## Dates -/

/-- A date of the years 1 to 9999. -/
@[ext]
structure Date where
  year : ℕ
  month : ℕ
  day : ℕ
  year_pos : 1 ≤ year
  year_le : year ≤ 9999
  month_pos : 1 ≤ month
  month_le : month ≤ 12
  day_pos : 1 ≤ day
  day_le : day ≤ daysInMonth year month
deriving DecidableEq

namespace Date

/-- `toordinal`. -/
def ordinal (d : Date) : ℕ :=
  daysBeforeYear d.year + daysBeforeMonth (isLeap d.year) d.month + d.day

/-- The day after `d`: the first of the next month after the last day of a month, the first of
January after December, nothing after the year 9999. -/
def tomorrow (d : Date) : Option Date :=
  if hd : d.day + 1 ≤ daysInMonth d.year d.month then
    some { d with day := d.day + 1, day_pos := by omega, day_le := hd }
  else if hm : d.month + 1 ≤ 12 then
    some { d with
      month := d.month + 1, day := 1, month_pos := Nat.le_add_left _ _, month_le := hm
      day_pos := le_rfl
      day_le := by unfold daysInMonth monthLength; split_ifs <;> omega }
  else if hy : d.year + 1 ≤ 9999 then
    some { year := d.year + 1, month := 1, day := 1, year_pos := by omega, year_le := hy
           month_pos := le_rfl, month_le := by omega, day_pos := le_rfl
           day_le := by unfold daysInMonth monthLength; split_ifs <;> omega }
  else none

/-- **Day numbers count days.** -/
theorem ordinal_tomorrow {d d' : Date} (h : d.tomorrow = some d') :
    d'.ordinal = d.ordinal + 1 := by
  have hday := d.day_le
  unfold tomorrow at h
  split at h
  case isTrue hd =>
    obtain rfl := Option.some.inj h
    rfl
  case isFalse hd =>
    have hlast : d.day = monthLength (isLeap d.year) d.month := by
      unfold daysInMonth at hd hday
      omega
    split at h
    case isTrue hm =>
      obtain rfl := Option.some.inj h
      show daysBeforeYear d.year + daysBeforeMonth (isLeap d.year) (d.month + 1) + 1
        = daysBeforeYear d.year + daysBeforeMonth (isLeap d.year) d.month + d.day + 1
      rw [daysBeforeMonth_succ _ d.month_pos, ← hlast, ← Nat.add_assoc]
    case isFalse hm =>
      have hdec : d.month = 12 := by
        have := d.month_le
        omega
      split at h
      case isTrue hy =>
        obtain rfl := Option.some.inj h
        show daysBeforeYear (d.year + 1) + 0 + 1
          = daysBeforeYear d.year + daysBeforeMonth (isLeap d.year) d.month + d.day + 1
        have h31 : d.day = 31 := by rw [hlast, hdec]; rfl
        have hyear := daysBeforeMonth_december (isLeap d.year)
        rw [daysBeforeYear_succ d.year_pos, hdec, h31]
        omega
      case isFalse hy => exact absurd h (by simp)

theorem daysBeforeYear_mono {y z : ℕ} (hy : 1 ≤ y) (h : y ≤ z) :
    daysBeforeYear y ≤ daysBeforeYear z := by
  induction z, h using Nat.le_induction with
  | base => exact le_rfl
  | succ z hz ih =>
      rw [daysBeforeYear_succ (hy.trans hz)]
      omega

theorem daysBeforeMonth_mono (leap : Bool) {m n : ℕ} (hm : 1 ≤ m) (h : m ≤ n) :
    daysBeforeMonth leap m ≤ daysBeforeMonth leap n := by
  induction n, h using Nat.le_induction with
  | base => exact le_rfl
  | succ n hn ih =>
      rw [daysBeforeMonth_succ leap (hm.trans hn)]
      omega

/-- The day of the year. -/
def dayOfYear (d : Date) : ℕ := daysBeforeMonth (isLeap d.year) d.month + d.day

theorem dayOfYear_le (d : Date) :
    d.dayOfYear ≤ daysBeforeMonth (isLeap d.year) (d.month + 1) := by
  rw [daysBeforeMonth_succ _ d.month_pos]
  exact Nat.add_le_add_left d.day_le _

theorem dayOfYear_le_yearLength (d : Date) : d.dayOfYear ≤ yearLength (isLeap d.year) := by
  have hmonths := daysBeforeMonth_mono (isLeap d.year) (m := d.month + 1) (n := 13)
    (Nat.le_add_left _ _) (Nat.succ_le_succ d.month_le)
  have hyear : daysBeforeMonth (isLeap d.year) 13 = yearLength (isLeap d.year) :=
    daysBeforeMonth_december _
  exact d.dayOfYear_le.trans (hyear ▸ hmonths)

theorem ordinal_eq (d : Date) : d.ordinal = daysBeforeYear d.year + d.dayOfYear :=
  Nat.add_assoc _ _ _

/-- The days of a year lie between the starts of that year and the next. -/
theorem ordinal_bounds (d : Date) :
    daysBeforeYear d.year < d.ordinal ∧ d.ordinal ≤ daysBeforeYear (d.year + 1) := by
  have hday := d.day_pos
  rw [ordinal_eq, daysBeforeYear_succ d.year_pos]
  refine ⟨?_, Nat.add_le_add_left d.dayOfYear_le_yearLength _⟩
  unfold dayOfYear
  omega

theorem year_le_of_ordinal_le {d e : Date} (h : d.ordinal ≤ e.ordinal) : d.year ≤ e.year := by
  by_contra hlt
  have hmono := daysBeforeYear_mono (Nat.le_add_left 1 e.year) (Nat.succ_le_of_lt (not_le.1 hlt))
  have hd := d.ordinal_bounds.1
  have he := e.ordinal_bounds.2
  omega

/-- **No two dates share a day number.** -/
theorem ordinal_injective {d e : Date} (h : d.ordinal = e.ordinal) : d = e := by
  have hyear : d.year = e.year :=
    le_antisymm (year_le_of_ordinal_le h.le) (year_le_of_ordinal_le h.ge)
  have hday : d.dayOfYear = e.dayOfYear := by
    rw [ordinal_eq, ordinal_eq, hyear] at h
    omega
  have hmonth : d.month = e.month := by
    have hd := d.dayOfYear_le
    have he := e.dayOfYear_le
    have hd' : daysBeforeMonth (isLeap d.year) d.month < d.dayOfYear :=
      Nat.lt_add_of_pos_right d.day_pos
    have he' : daysBeforeMonth (isLeap e.year) e.month < e.dayOfYear :=
      Nat.lt_add_of_pos_right e.day_pos
    rw [hyear] at hd hd'
    rcases lt_trichotomy d.month e.month with hlt | heq | hgt
    · have := daysBeforeMonth_mono (isLeap e.year) (Nat.le_add_left 1 d.month) hlt
      omega
    · exact heq
    · have := daysBeforeMonth_mono (isLeap e.year) (Nat.le_add_left 1 e.month) hgt
      omega
  have hdom : d.day = e.day := by
    unfold dayOfYear at hday
    rw [hyear, hmonth] at hday
    omega
  exact Date.ext hyear hmonth hdom

/-- The last day number, 31 December 9999. -/
def maxOrdinal : ℕ := 3652059

end Date

open Date

/-! ## Dates from day numbers -/

/-- The year of a day number and the days of that year before it. -/
def splitOrdinal (n : ℕ) : ℕ × ℕ :=
  let n400 := (n - 1) / 146097
  let r400 := (n - 1) % 146097
  let n100 := r400 / 36524
  let r100 := r400 % 36524
  let n4 := r100 / 1461
  let r4 := r100 % 1461
  let n1 := r4 / 365
  let year := n400 * 400 + n100 * 100 + n4 * 4 + n1 + 1
  -- the last day of a cycle of 4 or 400 years would start a fifth part of it
  if n1 = 4 ∨ n100 = 4 then (year - 1, 365) else (year, r4 % 365)

/-- A year counted in cycles of 400, 100, 4 and 1 years. -/
theorem daysBeforeYear_cycles {a b c e : ℕ} (hb : b ≤ 3) (hc : c ≤ 24) (he : e ≤ 3) :
    daysBeforeYear (a * 400 + b * 100 + c * 4 + e + 1)
      = a * 146097 + b * 36524 + c * 1461 + e * 365 := by
  have h4 : (a * 400 + b * 100 + c * 4 + e) / 4 = a * 100 + b * 25 + c := by omega
  have h100 : (a * 400 + b * 100 + c * 4 + e) / 100 = a * 4 + b := by omega
  have h400 : (a * 400 + b * 100 + c * 4 + e) / 400 = a := by omega
  show (a * 400 + b * 100 + c * 4 + e) * 365 + (a * 400 + b * 100 + c * 4 + e) / 4
    - (a * 400 + b * 100 + c * 4 + e) / 100 + (a * 400 + b * 100 + c * 4 + e) / 400 = _
  rw [h4, h100, h400]
  omega

theorem splitOrdinal_spec {n : ℕ} (h : 1 ≤ n) :
    1 ≤ (splitOrdinal n).1 ∧ daysBeforeYear (splitOrdinal n).1 + (splitOrdinal n).2 + 1 = n ∧
      (splitOrdinal n).2 < yearLength (isLeap (splitOrdinal n).1) := by
  obtain ⟨a, ha⟩ : ∃ a, a = (n - 1) / 146097 := ⟨_, rfl⟩
  obtain ⟨b, hb⟩ : ∃ b, b = (n - 1) % 146097 / 36524 := ⟨_, rfl⟩
  obtain ⟨c, hc⟩ : ∃ c, c = (n - 1) % 146097 % 36524 / 1461 := ⟨_, rfl⟩
  obtain ⟨e, he⟩ : ∃ e, e = (n - 1) % 146097 % 36524 % 1461 / 365 := ⟨_, rfl⟩
  obtain ⟨r, hr⟩ : ∃ r, r = (n - 1) % 146097 % 36524 % 1461 % 365 := ⟨_, rfl⟩
  have hn : n = a * 146097 + b * 36524 + c * 1461 + e * 365 + r + 1 := by omega
  have hc' : c ≤ 24 := by omega
  have hr' : r < 365 := by omega
  simp only [splitOrdinal, ← ha, ← hb, ← hc, ← he, ← hr]
  split
  case isTrue hlast =>
    -- the day before the next cycle, found by counting that cycle as not yet begun
    have hlen : yearLength (isLeap (a * 400 + b * 100 + c * 4 + e + 1 - 1)) = 366 := by
      have hy : isLeap (a * 400 + b * 100 + c * 4 + e + 1 - 1) = true := by
        rw [isLeap_iff]
        omega
      rw [hy]
      rfl
    have hyear : daysBeforeYear (a * 400 + b * 100 + c * 4 + e + 1 - 1) + 365 + 1 = n := by
      rcases hlast with rfl | rfl
      · have hb' : b ≤ 3 := by omega
        show daysBeforeYear (a * 400 + b * 100 + c * 4 + 3 + 1) + 365 + 1 = n
        rw [daysBeforeYear_cycles hb' hc' le_rfl]
        omega
      · have hzero : c = 0 ∧ e = 0 ∧ r = 0 := by omega
        have hcyc := daysBeforeYear_cycles (a := a) (b := 3) (c := 24) (e := 3) le_rfl le_rfl le_rfl
        have harg : a * 400 + 4 * 100 + c * 4 + e + 1 - 1 = a * 400 + 3 * 100 + 24 * 4 + 3 + 1 := by
          omega
        rw [harg, hcyc]
        omega
    exact ⟨by omega, hyear, by rw [hlen]; omega⟩
  case isFalse hlast =>
    have hcyc := daysBeforeYear_cycles (a := a) (b := b) (c := c) (e := e) (by omega) hc' (by omega)
    refine ⟨by omega, ?_, ?_⟩
    · rw [hcyc]
      omega
    · unfold yearLength
      split <;> omega

theorem splitOrdinal_year_le {n : ℕ} (h : 1 ≤ n) (hn : n ≤ maxOrdinal) :
    (splitOrdinal n).1 ≤ 9999 := by
  have hs := (splitOrdinal_spec h).2.1
  generalize (splitOrdinal n).1 = year at hs ⊢
  unfold maxOrdinal at hn
  unfold daysBeforeYear at hs
  omega

/-- The month and day of a day of a year. -/
def splitYearDay (leap : Bool) (k : ℕ) : ℕ × ℕ :=
  let month := (k + 50) / 32
  -- thirty-two days a month guesses at most one month too far
  if daysBeforeMonth leap month ≤ k then (month, k - daysBeforeMonth leap month + 1)
  else (month - 1, k - daysBeforeMonth leap (month - 1) + 1)

theorem splitYearDay_spec : ∀ leap : Bool, ∀ k < 366, k < yearLength leap →
    1 ≤ (splitYearDay leap k).1 ∧ (splitYearDay leap k).1 ≤ 12 ∧ 1 ≤ (splitYearDay leap k).2 ∧
      (splitYearDay leap k).2 ≤ monthLength leap (splitYearDay leap k).1 ∧
      daysBeforeMonth leap (splitYearDay leap k).1 + (splitYearDay leap k).2 = k + 1 := by
  decide +kernel

theorem splitYearDay_spec' (leap : Bool) {k : ℕ} (h : k < yearLength leap) :
    1 ≤ (splitYearDay leap k).1 ∧ (splitYearDay leap k).1 ≤ 12 ∧ 1 ≤ (splitYearDay leap k).2 ∧
      (splitYearDay leap k).2 ≤ monthLength leap (splitYearDay leap k).1 ∧
      daysBeforeMonth leap (splitYearDay leap k).1 + (splitYearDay leap k).2 = k + 1 := by
  have hk : k < 366 := by
    unfold yearLength at h
    split at h <;> omega
  exact splitYearDay_spec leap k hk h

/-- `date.fromordinal`, `none` for a day outside the years 1 to 9999. -/
def ofOrdinal (n : ℕ) : Option Date :=
  if h : 1 ≤ n ∧ n ≤ maxOrdinal then
    let s := splitOrdinal n
    let md := splitYearDay (isLeap s.1) s.2
    have hs := splitOrdinal_spec h.1
    have hmd := splitYearDay_spec' _ hs.2.2
    some { year := s.1, month := md.1, day := md.2
           year_pos := hs.1
           year_le := splitOrdinal_year_le h.1 h.2
           month_pos := hmd.1, month_le := hmd.2.1, day_pos := hmd.2.2.1
           day_le := hmd.2.2.2.1 }
  else none

/-- **The date of a day number has that day number.** -/
theorem ordinal_ofOrdinal {n : ℕ} {d : Date} (h : ofOrdinal n = some d) : d.ordinal = n := by
  unfold ofOrdinal at h
  split at h
  case isTrue hn =>
    have hs := splitOrdinal_spec hn.1
    have hmd := splitYearDay_spec' _ hs.2.2
    obtain rfl := Option.some.inj h
    rw [Nat.add_assoc, ← hmd.2.2.2.2, ← Nat.add_assoc] at hs
    exact hs.2.1
  case isFalse hn => exact absurd h (by simp)

theorem ofOrdinal_isSome_iff (n : ℕ) : (ofOrdinal n).isSome = true ↔ 1 ≤ n ∧ n ≤ maxOrdinal := by
  unfold ofOrdinal
  split
  case isTrue hn => exact ⟨fun _ => hn, fun _ => rfl⟩
  case isFalse hn => exact ⟨fun hf => absurd hf (by simp), fun hf => absurd hf hn⟩

/-! ## Times -/

/-- A date and a time of day to the microsecond. -/
@[ext]
structure DateTime where
  date : Date
  hour : ℕ
  minute : ℕ
  second : ℕ
  microsecond : ℕ
  hour_lt : hour < 24
  minute_lt : minute < 60
  second_lt : second < 60
  microsecond_lt : microsecond < 1000000
deriving DecidableEq

namespace DateTime

/-- The seconds from the start of day 0 to the whole second of `t`. -/
def toSeconds (t : DateTime) : ℕ :=
  t.date.ordinal * 86400 + t.hour * 3600 + t.minute * 60 + t.second

def toMicros (t : DateTime) : ℕ := t.toSeconds * 1000000 + t.microsecond

theorem zero_second_lt : 0 < 60 := by decide

theorem zero_microsecond_lt : 0 < 1000000 := by decide

/-- `t` with its fraction of a second dropped. -/
def wholeSecond (t : DateTime) : DateTime :=
  { t with microsecond := 0, microsecond_lt := zero_microsecond_lt }

/-- `t` with its seconds and their fraction dropped. -/
def wholeMinute (t : DateTime) : DateTime :=
  { t with second := 0, microsecond := 0, second_lt := zero_second_lt
           microsecond_lt := zero_microsecond_lt }

/-- Midnight of the date of `t`. -/
def midnight (d : Date) : DateTime :=
  { date := d, hour := 0, minute := 0, second := 0, microsecond := 0, hour_lt := by omega
    minute_lt := by omega, second_lt := zero_second_lt, microsecond_lt := zero_microsecond_lt }

@[simp] theorem toSeconds_wholeSecond (t : DateTime) : t.wholeSecond.toSeconds = t.toSeconds := rfl

theorem toMicros_wholeSecond (t : DateTime) : t.wholeSecond.toMicros = t.toSeconds * 1000000 := by
  have hzero : t.wholeSecond.microsecond = 0 := rfl
  rw [toMicros, hzero, toSeconds_wholeSecond, Nat.add_zero]

theorem toSeconds_eq_div (t : DateTime) : t.toSeconds = t.toMicros / 1000000 := by
  have := t.microsecond_lt
  unfold toMicros
  omega

/-- The whole second of a time is all that `toSeconds` keeps of it. -/
theorem wholeSecond_eq_iff {t u : DateTime} :
    t.wholeSecond = u.wholeSecond ↔ t.toSeconds = u.toSeconds := by
  constructor
  · intro h
    rw [← toSeconds_wholeSecond t, h, toSeconds_wholeSecond]
  · intro h
    have ht := And.intro t.hour_lt (And.intro t.minute_lt t.second_lt)
    have hu := And.intro u.hour_lt (And.intro u.minute_lt u.second_lt)
    unfold toSeconds at h
    have hord : t.date.ordinal = u.date.ordinal := by omega
    have hhour : t.hour = u.hour := by omega
    have hminute : t.minute = u.minute := by omega
    have hsecond : t.second = u.second := by omega
    exact DateTime.ext (ordinal_injective hord) hhour hminute hsecond rfl

/-- The time that many microseconds after the start of day 0. -/
def ofMicros (m : ℕ) : Option DateTime :=
  (ofOrdinal (m / 86400000000)).map fun d =>
    { date := d
      hour := m / 3600000000 % 24
      minute := m / 60000000 % 60
      second := m / 1000000 % 60
      microsecond := m % 1000000
      hour_lt := Nat.mod_lt _ (by omega)
      minute_lt := Nat.mod_lt _ (by omega)
      second_lt := Nat.mod_lt _ (by omega)
      microsecond_lt := Nat.mod_lt _ (by omega) }

/-- **The time of a number of microseconds has that number of microseconds.** -/
theorem ofMicros_spec {m : ℕ} {t : DateTime} (h : ofMicros m = some t) : t.toMicros = m := by
  obtain ⟨d, hd, rfl⟩ := Option.map_eq_some_iff.1 h
  have hord := ordinal_ofOrdinal hd
  show (d.ordinal * 86400 + m / 3600000000 % 24 * 3600 + m / 60000000 % 60 * 60
    + m / 1000000 % 60) * 1000000 + m % 1000000 = m
  omega

theorem ofMicros_isSome_iff (m : ℕ) :
    (ofMicros m).isSome = true ↔ 1 ≤ m / 86400000000 ∧ m / 86400000000 ≤ maxOrdinal := by
  rw [ofMicros, Option.isSome_map, ofOrdinal_isSome_iff]

/-- `t + timedelta(microseconds=m)`, `none` for an `OverflowError`. -/
def add (t : DateTime) (m : ℕ) : Option DateTime := ofMicros (t.toMicros + m)

theorem add_spec {t u : DateTime} {m : ℕ} (h : t.add m = some u) :
    u.toMicros = t.toMicros + m := ofMicros_spec h

/-- A whole number of seconds is added to the whole seconds. -/
theorem toSeconds_add {t u : DateTime} {s : ℕ} (h : t.add (s * 1000000) = some u) :
    u.toSeconds = t.toSeconds + s := by
  rw [toSeconds_eq_div, toSeconds_eq_div, add_spec h]
  omega

/-- Adding a duration does not go back to an earlier year. -/
theorem year_le_of_toSeconds_le {t u : DateTime} (h : t.toSeconds ≤ u.toSeconds) :
    t.date.year ≤ u.date.year := by
  apply year_le_of_ordinal_le
  have hu := And.intro u.hour_lt (And.intro u.minute_lt u.second_lt)
  unfold toSeconds at h
  omega

end DateTime

/-! ## Local clocks -/

/-- The microseconds a local clock shows at an instant: its offset from UTC, in seconds, may depend
on the UTC second in any way. -/
def localMicros (offset : ℕ → ℤ) (instant : ℕ) : ℕ :=
  ((instant : ℤ) + offset (instant / 1000000) * 1000000).toNat

/-- `datetime.now()`: what the host's local clock shows at an instant, given as the microseconds of
its UTC time. -/
def localNow (offset : ℕ → ℤ) (instant : ℕ) : Option DateTime :=
  DateTime.ofMicros (localMicros offset instant)

end JosfraPge.Foundation.CivilCalendar
