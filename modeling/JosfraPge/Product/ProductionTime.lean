import JosfraPge.Product.NamingConvention

/-!
# The production time a product records

`main` reads the host's local clock once.  The reading goes into the basename, as a stamp with a
two-digit year, and into the CAS metadata, where it is marked as UTC.

* `decodeStamp_stamp`, `casTime_eq_some_iff`: what the two fields read back as;
* `offset_eq_zero_iff`: when the local clock and UTC show the same second;
* `recordsInstant_iff`: when the fields denote the instant at which the clock was read.
-/

namespace JosfraPge.Product.ProductionTime

open JosfraPge.Foundation.LineText
open JosfraPge.Foundation.XmlTree
open JosfraPge.Foundation.CivilCalendar
open JosfraPge.Foundation.TimeFormat
open JosfraPge.Foundation.IntLiteral
open JosfraPge.Product.CasDocument
open JosfraPge.Product.OutputNames
open JosfraPge.Product.CasMetadata
open JosfraPge.Product.OpenDataset
open JosfraPge.Product.ProductRun
open JosfraPge.Product.Orphans
open JosfraPge.Product.NamingConvention

/-! ## Reading the two fields -/

/-- The production stamp at the end of a basename. -/
def stampOf (basename : Text) : Text := basename.rtakeWhile (· ≠ '.')

/-- A production stamp read back as a time of a given century. -/
def decodeStamp (century : ℕ) (s : Text) : Option DateTime :=
  match matchFormat (readFormat productionTimestampFormat) {} s with
  | some (f, []) => Fields.toDateTime { f with year := century * 100 + f.year % 100 }
  | _ => none

theorem stampOf_basenameText (ts g : Text) (p : DateTime) :
    stampOf (basenameText ts g (stamp p)) = stamp p := by
  have hdot : '.' ∉ stamp p := fun h => absurd (isDigit_of_mem_stamp h) (by decide)
  have hsplit : basenameText ts g (stamp p)
      = (namePrefix ++ (ts ++ (durationPart ++ (g ++ (productPart ++ (dataVersion ++ ".i".toList))))))
        ++ '.' :: stamp p := by
    simp only [basenameText, List.append_assoc]
    rfl
  rw [hsplit, stampOf, rtakeWhile_ne hdot]

theorem decodeStamp_stamp {p : DateTime} (hy : 1000 ≤ p.date.year) :
    decodeStamp (p.date.year / 100) (stamp p) = some p.wholeSecond := by
  have hyear : p.date.year / 100 * 100
      + (if p.date.year % 100 ≤ 68 then 2000 + p.date.year % 100 else 1900 + p.date.year % 100) % 100
      = p.date.year := by
    split <;> omega
  rw [decodeStamp, stamp, strftime, matchFormat_write hy (by rw [readFormat_stamp]; decide),
    readFormat_stamp]
  show Fields.toDateTime { year := p.date.year / 100 * 100
      + (if p.date.year % 100 ≤ 68 then 2000 + p.date.year % 100 else 1900 + p.date.year % 100) % 100
                           month := p.date.month, day := p.date.day, hour := p.hour
                           minute := p.minute, second := p.second } = _
  rw [hyear]
  exact toDateTime_fields p.wholeSecond

/-- Too few digits are no number of that many digits. -/
theorem exactly_short {q : Char → Option ℕ} {d : Char} (hd : q d = none) {s : Text} (rest : Text)
    {width : ℕ} (hs : s.length < width) (n : ℕ) : exactly q width n (s ++ d :: rest) = none := by
  induction s generalizing width n with
  | nil =>
      obtain ⟨k, rfl⟩ := Nat.exists_eq_succ_of_ne_zero hs.ne'
      show (q d).bind _ = none
      rw [hd]
      rfl
  | cons c s ih =>
      obtain ⟨k, rfl⟩ := Nat.exists_eq_succ_of_ne_zero (Nat.ne_zero_of_lt hs)
      show (q c).bind (fun v => exactly q k (10 * n + v) (s ++ d :: rest)) = none
      cases q c with
      | none => rfl
      | some v => exact ih (Nat.lt_of_succ_lt_succ hs) _

/-- **The metadata's time reads back as the whole second of the clock**, for a year of four digits and
for no other. -/
theorem casTime_eq_some_iff {p t : DateTime} :
    strptime (strftime casTimeFormat p) casTimeFormat = some t ↔
      1000 ≤ p.date.year ∧ t = p.wholeSecond := by
  by_cases hy : 1000 ≤ p.date.year
  · rw [strptime_casTime hy, Option.some.injEq]
    exact ⟨fun h => ⟨hy, h.symm⟩, fun h => h.2.symm⟩
  · have hlen : (Nat.toDigits 10 p.date.year).length < 4 := by
      have := (Nat.length_toDigits_le_iff (b := 10) (n := p.date.year) (k := 3) (by omega)
        (by omega)).2 (by omega)
      omega
    have hmatch : matchFormat (readFormat casTimeFormat) {} (strftime casTimeFormat p) = none := by
      rw [strftime, readFormat_casTime]
      show matchFormat (.field .year :: .literal '-' :: _) {}
        (Nat.toDigits 10 p.date.year ++ '-' :: _) = none
      rw [matchFormat, alternatives, List.findSome?_cons, exactly_short (by decide) _ hlen]
      rfl
    have hnone : strptime (strftime casTimeFormat p) casTimeFormat = none := by
      rw [strptime, hmatch]
    rw [hnone]
    exact ⟨fun h => absurd h (by simp), fun h => absurd h.1 hy⟩

/-! ## The clock and UTC -/

section Clock

variable {offset : ℕ → ℤ} {instant : ℕ} {p u : DateTime}

/-- **The local clock and UTC show the same second when the offset is zero.** -/
theorem offset_eq_zero_iff (hp : localNow offset instant = some p)
    (hu : DateTime.ofMicros instant = some u) :
    offset (instant / 1000000) = 0 ↔ p.wholeSecond = u.wholeSecond := by
  have hlocal := DateTime.toSeconds_eq_div p
  have hutc := DateTime.toSeconds_eq_div u
  rw [DateTime.ofMicros_spec hp, localMicros] at hlocal
  rw [DateTime.ofMicros_spec hu] at hutc
  have hday := (DateTime.ofMicros_isSome_iff instant).1 (by rw [hu]; rfl)
  rw [DateTime.wholeSecond_eq_iff, hlocal, hutc]
  generalize offset (instant / 1000000) = k
  omega

theorem localNow_of_zero (h : offset (instant / 1000000) = 0) :
    localNow offset instant = DateTime.ofMicros instant := by
  rw [localNow, localMicros, h, Int.zero_mul, Int.add_zero, Int.toNat_natCast]

end Clock

/-! ## What a product records -/

/-- Both fields of a product denote the whole UTC second of an instant. -/
def RecordsInstant (instant : ℕ) (basename : Text) (m : Metadata) : Prop :=
  ∃ u s, DateTime.ofMicros instant = some u ∧
    m.lookup "ProductionDateTime".toList = some s ∧
    strptime s casTimeFormat = some u.wholeSecond ∧
    decodeStamp (u.date.year / 100) (stampOf basename) = some u.wholeSecond

section Recorded

variable {offset : ℕ → ℤ} {instant : ℕ} {p : DateTime} {root : Element} {b : Text} {m : Metadata}

theorem lookup_productionDateTime (hm : buildCasMetadata root b p = .ok m) :
    m.lookup "ProductionDateTime".toList = some (strftime casTimeFormat p) := by
  obtain ⟨t, g, v, u, -, -, -, rfl⟩ := buildCasMetadata_ok_iff.1 hm
  exact lookup_casMetadata _ _ _ _ _ _ (List.mem_of_getElem? (i := 26) rfl)

/-- A clock that is not at UTC, or at a year that is not of four digits, is recorded as another
instant or as none. -/
theorem of_recordsInstant (hclock : localNow offset instant = some p)
    (hm : buildCasMetadata root b p = .ok m) (h : RecordsInstant instant b m) :
    offset (instant / 1000000) = 0 ∧ 1000 ≤ p.date.year := by
  obtain ⟨u, s, hu, hs, hcas, -⟩ := h
  obtain rfl := Option.some.inj ((lookup_productionDateTime hm).symm.trans hs)
  obtain ⟨hy, hsecond⟩ := casTime_eq_some_iff.1 hcas
  exact ⟨(offset_eq_zero_iff hclock hu).2 hsecond.symm, hy⟩

theorem recordsInstant_of_zero (hclock : localNow offset instant = some p)
    (hb : buildOutputBasename root p = .ok b) (hm : buildCasMetadata root b p = .ok m)
    (hzero : offset (instant / 1000000) = 0) (hy : 1000 ≤ p.date.year) :
    RecordsInstant instant b m := by
  have hu : DateTime.ofMicros instant = some p := (localNow_of_zero hzero).symm.trans hclock
  obtain ⟨t, g, -, hname⟩ := buildOutputBasename_ok_iff.1 hb
  refine ⟨p, _, hu, lookup_productionDateTime hm, casTime_eq_some_iff.2 ⟨hy, rfl⟩, ?_⟩
  rw [hname, stampOf_basenameText]
  exact decodeStamp_stamp hy

end Recorded

/-- **Exactly when a completed run records its true production time**: the host's local time is UTC at
that second, in a year written with four digits. -/
theorem recordsInstant_iff {D : Type} {lib : Libraries D} {offset : ℕ → ℤ} {instant : ℕ}
    {p : DateTime} {configContents r : Text} {files files' : Files D}
    (hclock : localNow offset instant = some p)
    (h : (main lib configContents p r).run files = .ok ⟨⟩ files') :
    ∃ root b m, loadConfig lib configContents = .ok root ∧ buildOutputBasename root p = .ok b ∧
      buildCasMetadata root b p = .ok m ∧
      files' (casPath b) = some (.text (renderCasMetadata m)) ∧
      (RecordsInstant instant b m ↔ offset (instant / 1000000) = 0 ∧ 1000 ≤ p.date.year) := by
  obtain ⟨root, -, -, -, -, -, -, b, -, d, m, hload, -, -, hbase, -, -, hm, rfl⟩ := run_main_inv h
  refine ⟨root, b, m, hload, hbase, hm, completeFiles_cas d m, ?_⟩
  constructor
  · exact of_recordsInstant hclock hm
  · intro hcond
    exact recordsInstant_of_zero hclock hbase hm hcond.1 hcond.2

/-! ### A host four hours behind UTC -/

/-- 05:30 UTC on 3 November 2013. -/
def summerInstant : ℕ := (735175 * 86400 + 5 * 3600 + 1800) * 1000000

theorem clock_summerInstant : localNow fallBack summerInstant = some repeatedReading := by
  decide

/-- The run records 01:30 UTC. -/
theorem recordsInstant_fails_summer :
    localNow fallBack summerInstant = some repeatedReading ∧
      ∃ root b m files', loadConfig simpleLibraries (numberedConfig " 144 ") = .ok root ∧
        buildOutputBasename root repeatedReading = .ok b ∧
        (main simpleLibraries (numberedConfig " 144 ") repeatedReading []).run noFiles
          = .ok ⟨⟩ files' ∧
        files' (casPath b) = some (.text (renderCasMetadata m)) ∧
        ¬ RecordsInstant summerInstant b m := by
  refine ⟨clock_summerInstant, ?_⟩
  obtain ⟨-, b₀, d₀, m₀, -, -, -, hrun⟩ := run_main_blanks []
  obtain ⟨root, -, -, -, -, -, -, b, -, d, m, hload, -, -, hbase, -, -, hm, hfiles⟩ :=
    run_main_inv hrun
  refine ⟨root, b, m, _, hload, hbase, hrun, hfiles ▸ completeFiles_cas d m, ?_⟩
  intro hrecords
  have hzero := (of_recordsInstant clock_summerInstant hm hrecords).1
  exact absurd hzero (by decide)

theorem recordsInstant_iff_summer :
    ∃ (files' : Files PlainDataset) (root : Element) (b : Text) (m : Metadata),
      loadConfig simpleLibraries (numberedConfig " 144 ") = .ok root ∧
      buildOutputBasename root repeatedReading = .ok b ∧
      buildCasMetadata root b repeatedReading = .ok m ∧
      files' (casPath b) = some (.text (renderCasMetadata m)) ∧
      (RecordsInstant summerInstant b m ↔
        fallBack (summerInstant / 1000000) = 0 ∧ 1000 ≤ repeatedReading.date.year) := by
  obtain ⟨-, b₀, d₀, m₀, -, -, -, hrun⟩ := run_main_blanks []
  exact ⟨_, recordsInstant_iff clock_summerInstant hrun⟩

end JosfraPge.Product.ProductionTime
