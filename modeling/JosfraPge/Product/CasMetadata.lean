import JosfraPge.Product.CasDocument
import JosfraPge.Product.OutputNames

/-!
# The CAS metadata of a granule

`build_cas_metadata` fills the template's keys from the config and the production time.

* `lookup_casMetadata`: every key is written once, with the value listed for it;
* `buildCasMetadata_ok_iff`: when the metadata can be built, and what they are;
* `granuleTimes_consistent`: the time fields, read back, are the granule's start and end, its date,
  and the minute in its name.
-/

namespace JosfraPge.Product.CasMetadata

open JosfraPge.Foundation.LineText
open JosfraPge.Foundation.XmlTree
open JosfraPge.Foundation.CivilCalendar
open JosfraPge.Foundation.TimeFormat
open JosfraPge.Foundation.RunRules
open JosfraPge.Config.ScalarReaders
open JosfraPge.Product.CasDocument
open JosfraPge.Product.OutputNames

/-! ## Building the metadata -/

/-- `CAS_TIME_FORMAT` -/
def casTimeFormat : Text := "%Y-%m-%dT%H:%M:%S.000Z".toList

/-- `CAS_DATE_FORMAT` -/
def casDateFormat : Text := "%Y-%m-%d".toList

/-- `GRANULE_DURATION_MINUTES` -/
def granuleDurationMinutes : ℕ := 6

def primaryExecutable : Text := "PrimaryExecutable".toList

/-- The granule's end. -/
def granuleEnd (granuleDt : DateTime) : Except PgeError DateTime :=
  (granuleDt.add (granuleDurationMinutes * 60 * 1000000)).elim (.error .dateOverflow) .ok

/-- The mapping `build_cas_metadata` returns. -/
def casMetadata (version granuleNumber productName : Text)
    (granuleDt granuleEndDt productionTime : DateTime) : Metadata :=
  [("AggregateDir".toList, "aqua_l2_josfra".toList),
   ("AlgorithmName".toList, "JOSFRA".toList),
   ("AlgorithmProvider".toList, "JPL".toList),
   ("AlgorithmVersion".toList, version),
   ("AutomaticQualityFlag".toList, "Passed".toList),
   ("BuildId".toList, "v03.21.00".toList),
   ("Collection".toList, "production".toList),
   ("CollectionLabel".toList, "std".toList),
   ("DataDuration".toList, "m06".toList),
   ("DataGroup".toList, "sndr".toList),
   ("DataProvider".toList, "nppint".toList),
   ("DataVersion".toList, dataVersion),
   ("EndDateTime".toList, strftime casTimeFormat granuleEndDt),
   ("EndTAI93".toList, "631374091.0".toList),
   ("FileFormat".toList, "nc".toList),
   ("FileLocation".toList,
     ("/home/albertli/deploy/pge_exe_dir/AIRSJosfra/2013-01-03_nom" ++
      "/2023-11-09_subm/90480011-f788-458d-9eca-e4cbf22dfd6f" ++
      "/cb58c0b4-192d-4fe8-8514-e0442d77572d").toList),
   ("Filename".toList, productName),
   ("GranuleNumber".toList, granuleNumber),
   ("JobId".toList, "cb58c0b4-192d-4fe8-8514-e0442d77572d".toList),
   ("Level2Type".toList, "RET.nc".toList),
   ("ModelId".toList, "urn:npp:AIRSJosfraNewMocca".toList),
   ("NodeInfo".toList, "smog.jpl.nasa.gov".toList),
   ("NominalDate".toList, strftime casDateFormat granuleDt),
   ("ProcessingLevel".toList, "L2".toList),
   ("ProductName".toList, productName),
   ("ProductType".toList, "AIRS_ARCHIVED_L2".toList),
   ("ProductionDateTime".toList, strftime casTimeFormat productionTime),
   ("ProductionLocation".toList, "JPL/Caltech Sounder SIPS Integration".toList),
   ("ProductionLocationCode".toList, "i".toList),
   ("RequestId".toList, "SIS-FAKE".toList),
   ("Resolution".toList, "NA".toList),
   ("RetrievalType".toList, "IROnly".toList),
   ("StartDateTime".toList, strftime casTimeFormat granuleDt),
   ("StartTAI93".toList, "631373731.0".toList),
   ("SubCollection".toList, dataVersion),
   ("TaskId".toList, "90480011-f788-458d-9eca-e4cbf22dfd6f".toList)]

/-- `build_cas_metadata` -/
def buildCasMetadata (root : Element) (basename : Text) (productionTime : DateTime) :
    Except PgeError Metadata := do
  let startDateTime ← requireScalar root granuleIdentification "StartDateTime".toList
  let granuleNumber ← requireScalar root granuleIdentification "StartGranuleNumber".toList
  let version ← requireScalar root primaryExecutable "Version".toList
  let granuleDt ← parseConfigTime startDateTime
  let granuleEndDt ← granuleEnd granuleDt
  return casMetadata version granuleNumber (ncName basename) granuleDt granuleEndDt productionTime

/-! ## Looking keys up -/

/-- The keys of the CAS template `SNDR.AQUA.JOSFRA.101.hdf.cas`, in order. -/
def templateKeys : List Text :=
  ["AggregateDir".toList, "AlgorithmName".toList, "AlgorithmProvider".toList,
   "AlgorithmVersion".toList, "AutomaticQualityFlag".toList, "BuildId".toList,
   "Collection".toList, "CollectionLabel".toList, "DataDuration".toList, "DataGroup".toList,
   "DataProvider".toList, "DataVersion".toList, "EndDateTime".toList, "EndTAI93".toList,
   "FileFormat".toList, "FileLocation".toList, "Filename".toList, "GranuleNumber".toList,
   "JobId".toList, "Level2Type".toList, "ModelId".toList, "NodeInfo".toList,
   "NominalDate".toList, "ProcessingLevel".toList, "ProductName".toList, "ProductType".toList,
   "ProductionDateTime".toList, "ProductionLocation".toList, "ProductionLocationCode".toList,
   "RequestId".toList, "Resolution".toList, "RetrievalType".toList, "StartDateTime".toList,
   "StartTAI93".toList, "SubCollection".toList, "TaskId".toList]

section Lookup

variable (version granuleNumber productName : Text) (granuleDt granuleEndDt productionTime : DateTime)

/-- The keys and their order follow the template. -/
theorem casMetadata_keys :
    (casMetadata version granuleNumber productName granuleDt granuleEndDt productionTime).map
      Prod.fst = templateKeys := rfl

theorem casMetadata_keys_nodup :
    ((casMetadata version granuleNumber productName granuleDt granuleEndDt productionTime).map
      Prod.fst).Nodup := by
  rw [casMetadata_keys]
  decide

/-- **Every key has the value listed for it.** -/
theorem lookup_casMetadata {k v : Text}
    (h : (k, v) ∈ casMetadata version granuleNumber productName granuleDt granuleEndDt
      productionTime) :
    (casMetadata version granuleNumber productName granuleDt granuleEndDt productionTime).lookup k
      = some v :=
  lookup_of_mem (casMetadata_keys_nodup _ _ _ _ _ _) h

end Lookup

theorem granuleEnd_ok_iff {t u : DateTime} :
    granuleEnd t = .ok u ↔ t.add (granuleDurationMinutes * 60 * 1000000) = some u := by
  unfold granuleEnd
  cases t.add (granuleDurationMinutes * 60 * 1000000) <;> simp

/-- **The metadata are those of the granule the config names**, with its end and the version the config
has; nothing else is needed. -/
theorem buildCasMetadata_ok_iff {root : Element} {b : Text} {p : DateTime} {m : Metadata} :
    buildCasMetadata root b p = .ok m ↔
      ∃ start granuleNumber version finish, Names root start granuleNumber ∧
        getScalar root primaryExecutable "Version".toList = .ok version ∧
        granuleEnd start = .ok finish ∧
        m = casMetadata version granuleNumber (ncName b) start finish p := by
  constructor
  · intro h
    obtain ⟨s, hs, h⟩ := except_bind_ok h
    obtain ⟨g, hg, h⟩ := except_bind_ok h
    obtain ⟨v, hv, h⟩ := except_bind_ok h
    obtain ⟨t, ht, h⟩ := except_bind_ok h
    obtain ⟨u, hu, h⟩ := except_bind_ok h
    exact ⟨t, g, v, u, ⟨⟨s, requireScalar_ok_iff.1 hs, parseConfigTime_ok_iff.1 ht⟩,
      requireScalar_ok_iff.1 hg⟩, requireScalar_ok_iff.1 hv, hu, (Except.ok.inj h).symm⟩
  · intro h
    obtain ⟨t, g, v, u, ⟨⟨s, hs, ht⟩, hg⟩, hv, hu, rfl⟩ := h
    rw [buildCasMetadata, except_bind_eq (requireScalar_ok_iff.2 hs),
      except_bind_eq (requireScalar_ok_iff.2 hg), except_bind_eq (requireScalar_ok_iff.2 hv),
      except_bind_eq (parseConfigTime_ok_iff.2 ht), except_bind_eq hu]
    rfl

/-! ## Reading the times back -/

theorem readFormat_casTime : readFormat casTimeFormat =
    [.field .year, .literal '-', .field .month, .literal '-', .field .day, .literal 'T',
      .field .hour, .literal ':', .field .minute, .literal ':', .field .second, .literal '.',
      .literal '0', .literal '0', .literal '0', .literal 'Z'] := by
  decide

theorem readFormat_casDate : readFormat casDateFormat =
    [.field .year, .literal '-', .field .month, .literal '-', .field .day] := by
  decide

/-- The whole-second format keeps the whole second. -/
theorem strptime_casTime {t : DateTime} (hy : 1000 ≤ t.date.year) :
    strptime (strftime casTimeFormat t) casTimeFormat = some t.wholeSecond := by
  rw [strptime_strftime hy (by rw [readFormat_casTime]; decide), readFormat_casTime]
  exact toDateTime_fields t.wholeSecond

theorem strptime_casDate {t : DateTime} (hy : 1000 ≤ t.date.year) :
    strptime (strftime casDateFormat t) casDateFormat = some (DateTime.midnight t.date) := by
  rw [strptime_strftime hy (by rw [readFormat_casDate]; decide), readFormat_casDate]
  exact toDateTime_fields (DateTime.midnight t.date)

theorem strptime_timestamp {t : DateTime} (hy : 1000 ≤ t.date.year) :
    strptime (timestamp t) timestampFormat = some t.wholeMinute := by
  rw [timestamp, strptime_strftime hy (by rw [readFormat_timestamp]; decide), readFormat_timestamp]
  exact toDateTime_fields t.wholeMinute

/-- The time fields of a basename and its metadata, read back, are those of the granule that starts
at `t`. -/
structure TimesConsistent (t : DateTime) (basename : Text) (m : Metadata) : Prop where
  start : ∃ s, m.lookup "StartDateTime".toList = some s ∧
    strptime s casTimeFormat = some t.wholeSecond
  finish : ∃ s u, m.lookup "EndDateTime".toList = some s ∧ strptime s casTimeFormat = some u ∧
    u.toMicros = t.wholeSecond.toMicros + 360 * 1000000
  nominal : ∃ s, m.lookup "NominalDate".toList = some s ∧
    strptime s casDateFormat = some (DateTime.midnight t.date)
  name : ∃ ts rest, basename = namePrefix ++ (ts ++ (durationPart ++ rest)) ∧ '.' ∉ ts ∧
    strptime ts timestampFormat = some t.wholeMinute

theorem toSeconds_granuleEnd {t u : DateTime} (h : granuleEnd t = .ok u) :
    u.toSeconds = t.toSeconds + granuleDurationMinutes * 60 := by
  have hadd := granuleEnd_ok_iff.1 h
  exact DateTime.toSeconds_add hadd

/-- The end of a granule is six minutes after its start, also between whole seconds. -/
theorem wholeSecond_granuleEnd {t u : DateTime} (h : granuleEnd t = .ok u) :
    u.wholeSecond.toMicros = t.wholeSecond.toMicros + 360 * 1000000 := by
  have hsec := toSeconds_granuleEnd h
  rw [DateTime.toMicros_wholeSecond, DateTime.toMicros_wholeSecond, hsec, granuleDurationMinutes]
  omega

theorem timesConsistent_casMetadata {t u p : DateTime} {v g b k : Text} {st : Text}
    (hy : 1000 ≤ t.date.year) (hu : granuleEnd t = .ok u)
    (hb : b = basenameText (timestamp t) k st) :
    TimesConsistent t b (casMetadata v g (ncName b) t u p) := by
  have hyu : 1000 ≤ u.date.year := by
    have hsec := toSeconds_granuleEnd hu
    have hle : t.toSeconds ≤ u.toSeconds := by omega
    exact hy.trans (DateTime.year_le_of_toSeconds_le hle)
  constructor
  · refine ⟨strftime casTimeFormat t, lookup_casMetadata _ _ _ _ _ _ ?_, strptime_casTime hy⟩
    exact List.mem_of_getElem? (i := 32) rfl
  · refine ⟨strftime casTimeFormat u, u.wholeSecond, lookup_casMetadata _ _ _ _ _ _ ?_,
      strptime_casTime hyu, wholeSecond_granuleEnd hu⟩
    exact List.mem_of_getElem? (i := 12) rfl
  · refine ⟨strftime casDateFormat t, lookup_casMetadata _ _ _ _ _ _ ?_, strptime_casDate hy⟩
    exact List.mem_of_getElem? (i := 22) rfl
  · exact ⟨timestamp t, _, hb, not_mem_timestamp rfl (by decide), strptime_timestamp hy⟩

/-- **The time fields of a granule are consistent**: for every start text `strptime` accepts, with a
year of four digits and an end that exists, they are those of the same instant, its fraction dropped. -/
theorem granuleTimes_consistent {root : Element} {s g v : Text} {t u : DateTime} (p : DateTime)
    (hs : getScalar root granuleIdentification "StartDateTime".toList = .ok s)
    (hg : getScalar root granuleIdentification "StartGranuleNumber".toList = .ok g)
    (hv : getScalar root primaryExecutable "Version".toList = .ok v)
    (ht : strptime s configTimeFormat = some t) (hy : 1000 ≤ t.date.year)
    (hu : t.add (6 * 60 * 1000000) = some u) :
    ∃ b m, buildOutputBasename root p = .ok b ∧ buildCasMetadata root b p = .ok m ∧
      TimesConsistent t b m := by
  have hnames : Names root t g := ⟨⟨s, hs, ht⟩, hg⟩
  have hend : granuleEnd t = .ok u := granuleEnd_ok_iff.2 hu
  refine ⟨basenameText (timestamp t) g (stamp p), _, buildOutputBasename_ok_iff.2 ⟨t, g, hnames, rfl⟩,
    buildCasMetadata_ok_iff.2 ⟨t, g, v, u, hnames, hv, hend, rfl⟩, ?_⟩
  exact timesConsistent_casMetadata hy hend rfl

/-! ### A granule across the end of a leap day -/

/-- A config with what every product needs. -/
def productConfig (startDateTime startGranuleNumber version : Text) : Element :=
  .mk "config".toList [] none
    [groupElement granuleIdentification
      [scalarElement "StartDateTime".toList startDateTime,
       scalarElement "StartGranuleNumber".toList startGranuleNumber],
     groupElement primaryExecutable [scalarElement "Version".toList version]]

def leapText : Text := "2012-02-29T23:57:30.75Z".toList

def leapStart : DateTime := (strptime leapText configTimeFormat).get (by decide)

def leapEnd : DateTime := (leapStart.add (6 * 60 * 1000000)).get (by decide)

theorem granuleTimes_consistent_leapDay :
    ∃ b m, buildOutputBasename (productConfig leapText "144".toList "6.0".toList) leapStart = .ok b ∧
      buildCasMetadata (productConfig leapText "144".toList "6.0".toList) b leapStart = .ok m ∧
      TimesConsistent leapStart b m :=
  granuleTimes_consistent (u := leapEnd) leapStart (by decide) (g := "144".toList)
    (by decide)
    (v := "6.0".toList) (by decide) (s := leapText) (by decide) (by decide)
    (by decide)

end JosfraPge.Product.CasMetadata
