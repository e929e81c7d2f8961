import JosfraPge.Config.ScalarReaders
import JosfraPge.Foundation.PosixPath
import JosfraPge.Foundation.RunRules
import JosfraPge.Foundation.TimeFormat

/-!
# The names of the products

`build_output_basename` puts the granule's start to the minute, its number as the config has it, and
the production time of the run, read from the host's local clock, into one name.

* `basenameText_inj`: the name determines its three parts;
* `timestamp_eq_iff`, `stamp_eq_iff`: what the two time parts determine;
* `keptApart_iff`: when two runs write to different paths;
* `sameReading_iff_of_century`: what that asks of the local clock.
-/

namespace JosfraPge.Product.OutputNames

open JosfraPge.Foundation.LineText
open JosfraPge.Foundation.XmlTree
open JosfraPge.Foundation.CivilCalendar
open JosfraPge.Foundation.IntLiteral
open JosfraPge.Foundation.TimeFormat
open JosfraPge.Foundation.PosixPath
open JosfraPge.Foundation.RunRules
open JosfraPge.Config.ScalarReaders

/-! ## Constants of the PGE -/

/-- `OUTPUT_DIR` -/
def outputDir : Text := "output".toList

/-- `CONFIG_TIME_FORMAT` -/
def configTimeFormat : Text := "%Y-%m-%dT%H:%M:%S.%fZ".toList

/-- `PRODUCTION_TIMESTAMP_FORMAT` -/
def productionTimestampFormat : Text := "%y%m%d%H%M%S".toList

/-- `DATA_VERSION` -/
def dataVersion : Text := "v08_00_15".toList

/-- The format of the granule's time in the name. -/
def timestampFormat : Text := "%Y%m%dT%H%M".toList

def granuleIdentification : Text := "GranuleIdentification".toList

/-! ## Building the name -/

/-- What ends a run early. -/
inductive PgeError where
  | lookup (e : LookupError)
  | emptyConfig
  | malformedConfig
  /-- `strptime` rejects a text. -/
  | badTime (s : Text)
  /-- `int()` rejects a text. -/
  | badInteger (s : Text)
  /-- A time after the year 9999. -/
  | dateOverflow
  /-- A product cannot be opened. -/
  | notOpened (path : PurePath)
  /-- An attribute cannot be stored. -/
  | notStored (name : Text)
  /-- A file cannot be written. -/
  | notWritten (path : PurePath)
deriving DecidableEq

/-- `get_scalar`, as a step of a run. -/
def requireScalar (root : Element) (groupName scalarName : Text) : Except PgeError Text :=
  (getScalar root groupName scalarName).mapError .lookup

/-- `datetime.strptime(s, CONFIG_TIME_FORMAT)` -/
def parseConfigTime (s : Text) : Except PgeError DateTime :=
  (strptime s configTimeFormat).elim (.error (.badTime s)) .ok

def namePrefix : Text := "SNDR.AQUA.AIRS.".toList

def durationPart : Text := ".m06.g".toList

def productPart : Text := ".JOSFRA.std.".toList

def locationPart : Text := ".i.".toList

def basenameText (timestamp granuleNumber stamp : Text) : Text :=
  namePrefix ++ (timestamp ++ (durationPart ++ (granuleNumber ++ (productPart ++ (dataVersion ++
    (locationPart ++ stamp))))))

/-- The granule's time in the name. -/
def timestamp (granuleDt : DateTime) : Text := strftime timestampFormat granuleDt

/-- The production time in the name. -/
def stamp (productionTime : DateTime) : Text := strftime productionTimestampFormat productionTime

/-- `build_output_basename` -/
def buildOutputBasename (root : Element) (productionTime : DateTime) : Except PgeError Text := do
  let startDateTime ← requireScalar root granuleIdentification "StartDateTime".toList
  let startGranuleNumber ← requireScalar root granuleIdentification "StartGranuleNumber".toList
  let granuleDt ← parseConfigTime startDateTime
  return basenameText (timestamp granuleDt) startGranuleNumber (stamp productionTime)

def ncName (basename : Text) : Text := basename ++ ".nc".toList

def casName (basename : Text) : Text := basename ++ ".nc.cas".toList

/-- `OUTPUT_DIR / f"{basename}.nc"` -/
def ncPath (basename : Text) : PurePath := (PurePath.ofText outputDir).join (ncName basename)

/-- `OUTPUT_DIR / f"{basename}.nc.cas"` -/
def casPath (basename : Text) : PurePath := (PurePath.ofText outputDir).join (casName basename)

/-- The granule a config names: its start and the text of its number. -/
structure Names (root : Element) (start : DateTime) (granuleNumber : Text) : Prop where
  start : ∃ s, getScalar root granuleIdentification "StartDateTime".toList = .ok s ∧
    strptime s configTimeFormat = some start
  number : getScalar root granuleIdentification "StartGranuleNumber".toList = .ok granuleNumber

theorem requireScalar_ok_iff {root : Element} {g s t : Text} :
    requireScalar root g s = .ok t ↔ getScalar root g s = .ok t := by
  unfold requireScalar
  cases getScalar root g s <;> simp [Except.mapError]

theorem parseConfigTime_ok_iff {s : Text} {t : DateTime} :
    parseConfigTime s = .ok t ↔ strptime s configTimeFormat = some t := by
  unfold parseConfigTime
  cases strptime s configTimeFormat <;> simp

/-- **The name is made of what the config names and the production time.** -/
theorem buildOutputBasename_ok_iff {root : Element} {p : DateTime} {b : Text} :
    buildOutputBasename root p = .ok b ↔
      ∃ start granuleNumber, Names root start granuleNumber ∧
        b = basenameText (timestamp start) granuleNumber (stamp p) := by
  constructor
  · intro h
    obtain ⟨s, hs, h⟩ := except_bind_ok h
    obtain ⟨g, hg, h⟩ := except_bind_ok h
    obtain ⟨t, ht, h⟩ := except_bind_ok h
    exact ⟨t, g, ⟨⟨s, requireScalar_ok_iff.1 hs, parseConfigTime_ok_iff.1 ht⟩, requireScalar_ok_iff.1 hg⟩,
      (Except.ok.inj h).symm⟩
  · intro h
    obtain ⟨t, g, ⟨⟨s, hs, ht⟩, hg⟩, rfl⟩ := h
    rw [buildOutputBasename, except_bind_eq (requireScalar_ok_iff.2 hs),
      except_bind_eq (requireScalar_ok_iff.2 hg), except_bind_eq (parseConfigTime_ok_iff.2 ht)]
    rfl

theorem Names.unique {root : Element} {t u : DateTime} {g k : Text} (h : Names root t g)
    (h' : Names root u k) : t = u ∧ g = k := by
  obtain ⟨⟨s, hs, ht⟩, hg⟩ := h
  obtain ⟨⟨s', hs', hu⟩, hk⟩ := h'
  obtain rfl := Except.ok.inj (hs.symm.trans hs')
  exact ⟨Option.some.inj (ht.symm.trans hu), Except.ok.inj (hg.symm.trans hk)⟩

/-! ## The parts of the name -/

theorem readFormat_timestamp : readFormat timestampFormat =
    [.field .year, .field .month, .field .day, .literal 'T', .field .hour, .field .minute] := by
  decide

theorem readFormat_stamp : readFormat productionTimestampFormat =
    [.field .shortYear, .field .month, .field .day, .field .hour, .field .minute,
      .field .second] := by
  decide

theorem timestamp_eq (t : DateTime) :
    timestamp t = Nat.toDigits 10 t.date.year ++ (padDigits 2 t.date.month ++
      (padDigits 2 t.date.day ++ ('T' :: (padDigits 2 t.hour ++ padDigits 2 t.minute)))) := by
  rw [timestamp, strftime, readFormat_timestamp]
  rfl

theorem stamp_eq (p : DateTime) :
    stamp p = padDigits 2 (p.date.year % 100) ++ (padDigits 2 p.date.month ++
      (padDigits 2 p.date.day ++ (padDigits 2 p.hour ++ (padDigits 2 p.minute ++
        padDigits 2 p.second)))) := by
  rw [stamp, strftime, readFormat_stamp]
  rfl

theorem length_stamp (p : DateTime) : (stamp p).length = 12 := by
  rw [stamp_eq]
  simp only [List.length_append, length_padDigits]

theorem isDigit_of_mem_stamp {p : DateTime} {c : Char} (h : c ∈ stamp p) : c.isDigit = true := by
  rw [stamp_eq] at h
  simp only [List.mem_append] at h
  rcases h with h | h | h | h | h | h <;> exact isDigit_of_mem_padDigits h

theorem mem_timestamp {t : DateTime} {c : Char} (h : c ∈ timestamp t) :
    c.isDigit = true ∨ c = 'T' := by
  rw [timestamp_eq] at h
  simp only [List.mem_append, List.mem_cons] at h
  rcases h with h | h | h | h | h | h
  · exact Or.inl (Nat.isDigit_of_mem_toDigits (by omega) (by omega) h)
  · exact Or.inl (isDigit_of_mem_padDigits h)
  · exact Or.inl (isDigit_of_mem_padDigits h)
  · exact Or.inr h
  · exact Or.inl (isDigit_of_mem_padDigits h)
  · exact Or.inl (isDigit_of_mem_padDigits h)

theorem not_mem_timestamp {t : DateTime} {c : Char} (hd : c.isDigit = false) (hT : c ≠ 'T') :
    c ∉ timestamp t := by
  intro h
  rcases mem_timestamp h with hc | hc
  · rw [hd] at hc
    exact Bool.noConfusion hc
  · exact hT hc

/-- Two numbers below 100 with the same two digits are equal. -/
theorem padDigits_two_inj {m n : ℕ} (hm : m < 100) (hn : n < 100)
    (h : padDigits 2 m = padDigits 2 n) : m = n := by
  have hread := exactly_padDigits decimalValue_digitChar 2 0 m []
  rw [h, exactly_padDigits decimalValue_digitChar 2 0 n []] at hread
  have hval := congrArg Prod.fst (Option.some.inj hread)
  simp only [Nat.zero_mul, Nat.zero_add] at hval
  omega

/-- Two-digit parts in front of texts of the same length. -/
theorem padDigits_append_inj {m n : ℕ} {s t : Text} (hm : m < 100) (hn : n < 100)
    (h : padDigits 2 m ++ s = padDigits 2 n ++ t) : m = n ∧ s = t := by
  obtain ⟨h1, h2⟩ := List.append_inj h (by rw [length_padDigits, length_padDigits])
  exact ⟨padDigits_two_inj hm hn h1, h2⟩

theorem day_lt (d : Date) : d.day < 100 := by
  have := d.day_le.trans (daysInMonth_le _ _)
  omega

theorem month_lt (d : Date) : d.month < 100 := by
  have := d.month_le
  omega

/-- The name's first time part is the minute the granule starts in. -/
theorem timestamp_eq_iff {t u : DateTime} :
    timestamp t = timestamp u ↔ t.wholeMinute = u.wholeMinute := by
  constructor
  · intro h
    rw [timestamp_eq, timestamp_eq] at h
    obtain ⟨hy, h⟩ := List.append_inj' h (by
      simp only [List.length_append, List.length_cons, length_padDigits])
    have hyear : t.date.year = u.date.year := by
      rw [← Nat.ofDigitChars_toDigits (b := 10) (n := t.date.year) (by omega) (by omega), hy,
        Nat.ofDigitChars_toDigits (by omega) (by omega)]
    obtain ⟨hmonth, h⟩ := padDigits_append_inj (month_lt _) (month_lt _) h
    obtain ⟨hday, h⟩ := padDigits_append_inj (day_lt _) (day_lt _) h
    obtain ⟨hhour, h⟩ := padDigits_append_inj (by have := t.hour_lt; omega)
      (by have := u.hour_lt; omega) (List.cons.inj h).2
    have hminute := padDigits_two_inj (by have := t.minute_lt; omega)
      (by have := u.minute_lt; omega) h
    exact DateTime.ext (Date.ext hyear hmonth hday) hhour hminute rfl rfl
  · intro h
    obtain ⟨hdate, hhour, hminute, -, -⟩ := DateTime.ext_iff.1 h
    have hd : t.date = u.date := hdate
    have hh : t.hour = u.hour := hhour
    have hm : t.minute = u.minute := hminute
    rw [timestamp_eq, timestamp_eq, hd, hh, hm]

/-- Two readings of a clock that agree to the second, the century left out. -/
def SameReading (p q : DateTime) : Prop :=
  p.date.year % 100 = q.date.year % 100 ∧ p.date.month = q.date.month ∧ p.date.day = q.date.day ∧
    p.hour = q.hour ∧ p.minute = q.minute ∧ p.second = q.second

/-- The name's last part is the reading of the local clock. -/
theorem stamp_eq_iff {p q : DateTime} : stamp p = stamp q ↔ SameReading p q := by
  rw [stamp_eq, stamp_eq]
  constructor
  · intro h
    obtain ⟨hyear, h⟩ := padDigits_append_inj (Nat.mod_lt _ (by omega)) (Nat.mod_lt _ (by omega)) h
    obtain ⟨hmonth, h⟩ := padDigits_append_inj (month_lt _) (month_lt _) h
    obtain ⟨hday, h⟩ := padDigits_append_inj (day_lt _) (day_lt _) h
    obtain ⟨hhour, h⟩ := padDigits_append_inj (by have := p.hour_lt; omega)
      (by have := q.hour_lt; omega) h
    obtain ⟨hminute, h⟩ := padDigits_append_inj (by have := p.minute_lt; omega)
      (by have := q.minute_lt; omega) h
    have hsecond := padDigits_two_inj (by have := p.second_lt; omega)
      (by have := q.second_lt; omega) h
    exact ⟨hyear, hmonth, hday, hhour, hminute, hsecond⟩
  · intro h
    obtain ⟨hyear, hmonth, hday, hhour, hminute, hsecond⟩ := h
    rw [hyear, hmonth, hday, hhour, hminute, hsecond]

/-- **The name determines its parts**, whatever text the granule's number is. -/
theorem basenameText_inj {ts ts' g g' st st' : Text} (hts : '.' ∉ ts) (hts' : '.' ∉ ts')
    (hlen : st.length = st'.length) (h : basenameText ts g st = basenameText ts' g' st') :
    ts = ts' ∧ g = g' ∧ st = st' := by
  have h1 := List.append_cancel_left h
  -- the first dot ends the granule's time
  obtain ⟨htime, h2⟩ := append_cons_inj (d := '.') hts hts' h1
  have h2' : "m06.g".toList ++ _ = "m06.g".toList ++ _ := h2
  -- behind the granule's number both names go on for the same length
  obtain ⟨hg, h3⟩ := List.append_inj' (List.append_cancel_left h2') (by
    simp only [List.length_append, hlen])
  have h4 := List.append_cancel_left (List.append_cancel_left (List.append_cancel_left h3))
  exact ⟨htime, hg, h4⟩

theorem basenameText_injective {t u p q : DateTime} {g k : Text}
    (h : basenameText (timestamp t) g (stamp p) = basenameText (timestamp u) k (stamp q)) :
    timestamp t = timestamp u ∧ g = k ∧ stamp p = stamp q :=
  basenameText_inj (not_mem_timestamp rfl (by decide)) (not_mem_timestamp rfl (by decide))
    (by rw [length_stamp, length_stamp]) h

/-! ## Paths -/

theorem slash_not_mem_basename {t p : DateTime} {g : Text} (hg : '/' ∉ g) :
    '/' ∉ basenameText (timestamp t) g (stamp p) := by
  intro h
  simp only [basenameText, List.mem_append] at h
  rcases h with h | h | h | h | h | h | h | h
  · exact absurd h (by decide)
  · exact not_mem_timestamp rfl (by decide) h
  · exact absurd h (by decide)
  · exact hg h
  · exact absurd h (by decide)
  · exact absurd h (by decide)
  · exact absurd h (by decide)
  · exact absurd (isDigit_of_mem_stamp h) (by decide)

/-- The start of every name, which begins a relative path. -/
theorem basenameText_cons (timestamp granuleNumber stamp : Text) :
    ∃ rest, basenameText timestamp granuleNumber stamp = 'S' :: rest ∧ rest ≠ [] :=
  ⟨_, rfl, List.cons_ne_nil _ _⟩

/-- A product named without a slash is one file of the output directory. -/
theorem outputPath_eq {b ext : Text} {ts g st : Text} (hb : b = basenameText ts g st)
    (hslash : '/' ∉ b) (hext : '/' ∉ ext) :
    (PurePath.ofText outputDir).join (b ++ ext) = { root := [], parts := [outputDir, b ++ ext] } := by
  obtain ⟨rest, hrest, hne⟩ := basenameText_cons ts g st
  rw [hrest] at hb
  subst hb
  have hmem : '/' ∉ 'S' :: (rest ++ ext) := by
    intro h
    rcases List.mem_append.1 (List.cons_append ▸ h : '/' ∈ ('S' :: rest) ++ ext) with h | h
    · exact hslash h
    · exact hext h
  have hkept : Kept ('S' :: (rest ++ ext)) := by
    refine ⟨List.cons_ne_nil _ _, fun h => hne ?_⟩
    exact (List.append_eq_nil_iff.1 (List.cons.inj h).2).1
  rw [List.cons_append, join_relative _ (by decide), partsOf_single hmem hkept]
  rfl

theorem ncPath_eq {b ts g st : Text} (hb : b = basenameText ts g st) (hslash : '/' ∉ b) :
    ncPath b = { root := [], parts := [outputDir, ncName b] } :=
  outputPath_eq hb hslash (by decide)

theorem casPath_eq {b ts g st : Text} (hb : b = basenameText ts g st) (hslash : '/' ∉ b) :
    casPath b = { root := [], parts := [outputDir, casName b] } :=
  outputPath_eq hb hslash (by decide)

/-- The two products of a run are two files. -/
theorem ncPath_ne_casPath {b ts g st : Text} (hb : b = basenameText ts g st) :
    ncPath b ≠ casPath b := by
  obtain ⟨rest, hrest, -⟩ := basenameText_cons ts g st
  obtain ⟨ps, x, hnc⟩ := parts_append b (t := ".nc".toList) (by decide) (by decide)
  obtain ⟨qs, y, hcas⟩ := parts_append b (t := ".nc.cas".toList) (by decide) (by decide)
  rw [hrest] at hb
  subst hb
  intro heq
  rw [ncPath, casPath, ncName, casName, List.cons_append, List.cons_append,
    join_relative _ (by decide), join_relative _ (by decide)] at heq
  have hparts := List.append_cancel_left (PurePath.mk.inj heq).2
  rw [← List.cons_append, ← List.cons_append, hnc, hcas] at hparts
  have hlast := List.cons.inj (List.append_inj' hparts rfl).2
  -- the one name ends in `c`, the other in `s`
  have hchar := congrArg List.getLast? hlast.1
  rw [List.getLast?_append, List.getLast?_append] at hchar
  have hcs : some 'c' = some 's' := hchar
  exact absurd hcs (by decide)

/-! ## Two runs -/

/-- A run that has named its products: the instant its production time was taken, what the host's
clock showed then, the granule its config names, and the basename. -/
structure NamedRun (offset : ℕ → ℤ) where
  root : Element
  instant : ℕ
  productionTime : DateTime
  start : DateTime
  granuleNumber : Text
  basename : Text
  clock : localNow offset instant = some productionTime
  names : Names root start granuleNumber
  built : buildOutputBasename root productionTime = .ok basename

/-- If the runs differ in the minute of their granule, in its number or in the UTC second of their
production time, neither writes to a path of the other. -/
def KeptApart {offset : ℕ → ℤ} (r s : NamedRun offset) : Prop :=
  r.start.wholeMinute ≠ s.start.wholeMinute ∨ r.granuleNumber ≠ s.granuleNumber ∨
      r.instant / 1000000 ≠ s.instant / 1000000 →
    ncPath r.basename ≠ ncPath s.basename ∧ casPath r.basename ≠ casPath s.basename

section TwoRuns

variable {offset : ℕ → ℤ} {r s : NamedRun offset}

theorem NamedRun.basename_eq (r : NamedRun offset) :
    r.basename = basenameText (timestamp r.start) r.granuleNumber (stamp r.productionTime) := by
  obtain ⟨t, g, hnames, hb⟩ := buildOutputBasename_ok_iff.1 r.built
  obtain ⟨rfl, rfl⟩ := hnames.unique r.names
  exact hb

/-- Two runs share a name when their granules and the readings of the clock agree. -/
theorem basename_eq_iff : r.basename = s.basename ↔
    r.start.wholeMinute = s.start.wholeMinute ∧ r.granuleNumber = s.granuleNumber ∧
      SameReading r.productionTime s.productionTime := by
  rw [r.basename_eq, s.basename_eq]
  constructor
  · intro h
    obtain ⟨ht, hg, hs⟩ := basenameText_injective h
    exact ⟨timestamp_eq_iff.1 ht, hg, stamp_eq_iff.1 hs⟩
  · intro h
    obtain ⟨ht, hg, hs⟩ := h
    rw [timestamp_eq_iff.2 ht, hg, stamp_eq_iff.2 hs]

/-- Different names are different paths. -/
theorem paths_ne_iff (hr : '/' ∉ r.granuleNumber) (hs : '/' ∉ s.granuleNumber) :
    ncPath r.basename ≠ ncPath s.basename ∧ casPath r.basename ≠ casPath s.basename ↔
      r.basename ≠ s.basename := by
  have hslash : ∀ x : NamedRun offset, '/' ∉ x.granuleNumber → '/' ∉ x.basename := by
    intro x hx
    rw [x.basename_eq]
    exact slash_not_mem_basename hx
  rw [ncPath_eq r.basename_eq (hslash r hr), ncPath_eq s.basename_eq (hslash s hs),
    casPath_eq r.basename_eq (hslash r hr), casPath_eq s.basename_eq (hslash s hs)]
  constructor
  · intro h heq
    exact h.1 (by rw [heq])
  · intro h
    constructor
    · intro heq
      obtain ⟨-, hparts⟩ := PurePath.mk.inj heq
      have hname := (List.cons.inj (List.cons.inj hparts).2).1
      exact h (List.append_cancel_right hname)
    · intro heq
      obtain ⟨-, hparts⟩ := PurePath.mk.inj heq
      have hname := (List.cons.inj (List.cons.inj hparts).2).1
      exact h (List.append_cancel_right hname)

/-- **Exactly when two runs keep apart**: their granules differ, or at the two different seconds the
host's clock does not read the same. -/
theorem keptApart_iff (hr : '/' ∉ r.granuleNumber) (hs : '/' ∉ s.granuleNumber) :
    KeptApart r s ↔
      r.start.wholeMinute ≠ s.start.wholeMinute ∨ r.granuleNumber ≠ s.granuleNumber ∨
        (r.instant / 1000000 ≠ s.instant / 1000000 →
          ¬ SameReading r.productionTime s.productionTime) := by
  rw [KeptApart, paths_ne_iff hr hs, ne_eq (a := r.basename), basename_eq_iff]
  tauto

/-- Within a century the clock repeats a reading when both instants have the same local second. -/
theorem sameReading_iff_of_century
    (hcentury : r.productionTime.date.year / 100 = s.productionTime.date.year / 100) :
    SameReading r.productionTime s.productionTime ↔
      localMicros offset r.instant / 1000000 = localMicros offset s.instant / 1000000 := by
  have hr := DateTime.toSeconds_eq_div r.productionTime
  have hs := DateTime.toSeconds_eq_div s.productionTime
  rw [DateTime.ofMicros_spec r.clock] at hr
  rw [DateTime.ofMicros_spec s.clock] at hs
  rw [← hr, ← hs, ← DateTime.wholeSecond_eq_iff]
  constructor
  · intro h
    obtain ⟨hyear, hmonth, hday, hhour, hminute, hsecond⟩ := h
    have hy : r.productionTime.date.year = s.productionTime.date.year := by omega
    exact DateTime.ext (Date.ext hy hmonth hday) hhour hminute hsecond rfl
  · intro h
    obtain ⟨hdate, hhour, hminute, hsecond, -⟩ := DateTime.ext_iff.1 h
    have hd : r.productionTime.date = s.productionTime.date := hdate
    exact ⟨by rw [hd], by rw [hd], by rw [hd], hhour, hminute, hsecond⟩

end TwoRuns

/-! ### The hour that a clock set back repeats -/

def scalarElement (name text : Text) : Element :=
  .mk "scalar".toList [("name".toList, name)] (some text) []

def groupElement (name : Text) (children : List Element) : Element :=
  .mk "group".toList [("name".toList, name)] none children

/-- A config that only identifies its granule. -/
def granuleConfig (startDateTime startGranuleNumber : Text) : Element :=
  .mk "config".toList [] none
    [groupElement granuleIdentification
      [scalarElement "StartDateTime".toList startDateTime,
       scalarElement "StartGranuleNumber".toList startGranuleNumber]]

/-- Summer time, four hours behind UTC, ends on 3 November 2013 at 06:00 UTC. -/
def fallBack (second : ℕ) : ℤ := if second < 735175 * 86400 + 6 * 3600 then -4 * 3600 else -5 * 3600

def granuleStart : DateTime :=
  { date := { year := 2013, month := 1, day := 3, year_pos := by decide, year_le := by decide
              month_pos := by decide, month_le := by decide, day_pos := by decide
              day_le := by decide }
    hour := 14, minute := 22, second := 42, microsecond := 0, hour_lt := by decide
    minute_lt := by decide, second_lt := by decide, microsecond_lt := DateTime.zero_microsecond_lt }

def repeatedReading : DateTime :=
  { date := { year := 2013, month := 11, day := 3, year_pos := by decide, year_le := by decide
              month_pos := by decide, month_le := by decide, day_pos := by decide
              day_le := by decide }
    hour := 1, minute := 30, second := 0, microsecond := 0, hour_lt := by decide
    minute_lt := by decide, second_lt := DateTime.zero_second_lt
    microsecond_lt := DateTime.zero_microsecond_lt }

/-- A run at 01:30 local time, before or after the clock is set back. -/
def runAt (instant : ℕ) (h : localNow fallBack instant = some repeatedReading) :
    NamedRun fallBack :=
  { root := granuleConfig "2013-01-03T14:22:42.000000Z".toList "144".toList
    instant := instant, productionTime := repeatedReading, start := granuleStart
    granuleNumber := "144".toList
    basename := basenameText (timestamp granuleStart) "144".toList (stamp repeatedReading)
    clock := h
    names := ⟨⟨"2013-01-03T14:22:42.000000Z".toList, by decide, by decide⟩,
      by decide⟩
    built := by decide }

def firstRun : NamedRun fallBack := runAt ((735175 * 86400 + 5 * 3600 + 1800) * 1000000)
  (by decide)

def secondRun : NamedRun fallBack := runAt ((735175 * 86400 + 6 * 3600 + 1800) * 1000000)
  (by decide)

/-- An hour apart in the same century, for a granule number of plain digits, two runs share their
paths. -/
theorem keptApart_fails_fallBack :
    IsDigits firstRun.granuleNumber ∧ IsDigits secondRun.granuleNumber ∧
      1000 ≤ firstRun.start.date.year ∧ 1000 ≤ secondRun.start.date.year ∧
      firstRun.productionTime.date.year / 100 = secondRun.productionTime.date.year / 100 ∧
      firstRun.instant / 1000000 + 3600 = secondRun.instant / 1000000 ∧
      ¬ KeptApart firstRun secondRun := by
  refine ⟨by decide, by decide, by decide, by decide, by decide, by decide, ?_⟩
  intro h
  have hseconds : firstRun.instant / 1000000 ≠ secondRun.instant / 1000000 := by decide
  exact (h (Or.inr (Or.inr hseconds))).1 rfl

theorem keptApart_iff_fallBack :
    KeptApart firstRun secondRun ↔
      firstRun.start.wholeMinute ≠ secondRun.start.wholeMinute ∨
        firstRun.granuleNumber ≠ secondRun.granuleNumber ∨
        (firstRun.instant / 1000000 ≠ secondRun.instant / 1000000 →
          ¬ SameReading firstRun.productionTime secondRun.productionTime) :=
  keptApart_iff (by decide) (by decide)

end JosfraPge.Product.OutputNames
