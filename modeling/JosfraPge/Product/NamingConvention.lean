import JosfraPge.Product.Orphans

/-!
# The naming convention

The text of the granule's number goes into the name and into the metadata as it is, and through `int()`
into the product.

* `digits_of_form`, `timestamp_form`: which names have the documented form;
* `followsConvention_iff`: when a completed run follows the naming convention.
-/

namespace JosfraPge.Product.NamingConvention

open JosfraPge.Foundation.LineText
open JosfraPge.Foundation.XmlTree
open JosfraPge.Foundation.CivilCalendar
open JosfraPge.Foundation.IntLiteral
open JosfraPge.Foundation.TimeFormat
open JosfraPge.Foundation.PosixPath
open JosfraPge.Foundation.RunRules
open JosfraPge.Foundation.Refinement
open JosfraPge.Config.ScalarReaders
open JosfraPge.Product.CasDocument
open JosfraPge.Product.OutputNames
open JosfraPge.Product.CasMetadata
open JosfraPge.Product.OpenDataset

open JosfraPge.Product.ProductRun
open JosfraPge.Product.Orphans

variable {D : Type}

/-! ## The naming convention -/

/-- A text of so many ASCII digits. -/
def DigitString (width : ℕ) (s : Text) : Prop := s.length = width ∧ ∀ c ∈ s, c.isDigit = true

/-- The basename is one path component of the documented form, and the NetCDF attribute, the CAS
entries and the file's own name agree with it. -/
structure FollowsConvention (lib : Libraries D) (b : Text) (files : Files D) : Prop where
  onePart : PurePath.ofText b = { root := [], parts := [b] }
  records : ∃ date clock granule stamp : Text,
    DigitString 8 date ∧ DigitString 4 clock ∧ IsDigits granule ∧ DigitString 12 stamp ∧
    b = basenameText (date ++ 'T' :: clock) granule stamp ∧
    ∃ d m, files (ncPath b) = some (.netcdf d) ∧
      lib.attr d startGranuleNumberName = some (.number (digitsValue granule : ℤ)) ∧
      files (casPath b) = some (.text (renderCasMetadata m)) ∧
      m.lookup "GranuleNumber".toList = some granule ∧
      m.lookup "Filename".toList = some (ncPath b).name ∧
      m.lookup "ProductName".toList = some (ncPath b).name

section Convention

variable {lib : Libraries D} {configContents r : Text} {p : DateTime} {files files' : Files D}
  {root : Element} {b : Text}

theorem length_timestamp (t : DateTime) :
    (timestamp t).length = (Nat.toDigits 10 t.date.year).length + 9 := by
  rw [timestamp_eq]
  simp only [List.length_append, List.length_cons, length_padDigits]

/-- A name of the documented form comes from a digit string and a year of four digits. -/
theorem digits_of_form {start : DateTime} {g date clock granule st : Text}
    (hb : basenameText (timestamp start) g (stamp p) = basenameText (date ++ 'T' :: clock) granule st)
    (hdate : DigitString 8 date) (hclock : DigitString 4 clock) (hgranule : IsDigits granule)
    (hst : DigitString 12 st) : IsDigits g ∧ 1000 ≤ start.date.year := by
  have hdot : '.' ∉ date ++ 'T' :: clock := by
    intro h
    rcases List.mem_append.1 h with h | h
    · exact absurd (hdate.2 _ h) (by decide)
    · rcases List.mem_cons.1 h with h | h
      · exact absurd h (by decide)
      · exact absurd (hclock.2 _ h) (by decide)
  obtain ⟨htime, rfl, -⟩ := basenameText_inj (not_mem_timestamp rfl (by decide)) hdot
    (by rw [length_stamp, hst.1]) hb
  refine ⟨hgranule, ?_⟩
  have hlen := congrArg List.length htime
  rw [length_timestamp, List.length_append, List.length_cons, hdate.1, hclock.1] at hlen
  by_contra hyear
  have hshort := (Nat.length_toDigits_le_iff (b := 10) (n := start.date.year) (k := 3) (by omega)
    (by omega)).2 (by omega)
  omega

/-- The time of a granule in a year of four digits has the documented form. -/
theorem timestamp_form {t : DateTime} (hy : 1000 ≤ t.date.year) :
    ∃ date clock, DigitString 8 date ∧ DigitString 4 clock ∧ timestamp t = date ++ 'T' :: clock := by
  refine ⟨padDigits 4 t.date.year ++ (padDigits 2 t.date.month ++ padDigits 2 t.date.day),
    padDigits 2 t.hour ++ padDigits 2 t.minute, ⟨?_, ?_⟩, ⟨?_, ?_⟩, ?_⟩
  · simp only [List.length_append, length_padDigits]
  · intro c hc
    simp only [List.mem_append] at hc
    rcases hc with hc | hc | hc <;> exact isDigit_of_mem_padDigits hc
  · simp only [List.length_append, length_padDigits]
  · intro c hc
    rcases List.mem_append.1 hc with hc | hc <;> exact isDigit_of_mem_padDigits hc
  · rw [timestamp_eq, toDigits_year hy t.date.year_le]
    simp only [List.append_assoc]

theorem slash_not_mem_of_isDigits {g : Text} (h : IsDigits g) : '/' ∉ g := by
  intro hmem
  exact absurd (h.2 _ hmem) (by decide)

/-- **Exactly when a completed run follows the convention**: the text of its granule number is a string
of ASCII digits and its granule is of a year with four digits. -/
theorem followsConvention_iff (hlib : lib.Lawful)
    (h : (main lib configContents p r).run files = .ok ⟨⟩ files') :
    ∃ root start g b, loadConfig lib configContents = .ok root ∧ Names root start g ∧
      buildOutputBasename root p = .ok b ∧
      (FollowsConvention lib b files' ↔ IsDigits g ∧ 1000 ≤ start.date.year) := by
  obtain ⟨root, start, s, g, v, aux, input, b, d₀, d, m, hload, hnames, hreads, hbase, hcreate, hfill,
    hm, rfl⟩ := run_main_inv h
  refine ⟨root, start, g, b, hload, hnames, hbase, ?_⟩
  obtain ⟨t, k, hnames', hb⟩ := buildOutputBasename_ok_iff.1 hbase
  obtain ⟨rfl, rfl⟩ := hnames'.unique hnames
  constructor
  · intro hconv
    obtain ⟨date, clock, granule, st, hdate, hclock, hgranule, hst, hform, -⟩ := hconv.records
    exact digits_of_form (hb.symm.trans hform) hdate hclock hgranule hst
  · intro hdigits
    obtain ⟨hg, hy⟩ := hdigits
    have hslash : '/' ∉ b := by
      rw [hb]
      exact slash_not_mem_basename (slash_not_mem_of_isDigits hg)
    have hname : (ncPath b).name = ncName b := by
      rw [ncPath_eq hb hslash]
      rfl
    obtain ⟨date, clock, hdate, hclock, htime⟩ := timestamp_form hy
    obtain ⟨n, hn, -, hglobals⟩ := run_fillDataset_inv hlib (blankness_of_create hlib hcreate) hfill
    obtain ⟨_, _, v', u, hnames'', -, -, rfl⟩ := buildCasMetadata_ok_iff.1 hm
    obtain ⟨rfl, rfl⟩ := hnames.unique hnames''
    constructor
    · obtain ⟨rest, hrest, hne⟩ := basenameText_cons (timestamp t) k (stamp p)
      rw [hrest] at hb
      subst hb
      exact ofText_single hslash ⟨List.cons_ne_nil _ _, fun heq => hne (List.cons.inj heq).2⟩
    · refine ⟨date, clock, k, stamp p, hdate, hclock, hg, ⟨length_stamp p, fun c hc =>
        isDigit_of_mem_stamp hc⟩, htime ▸ hb, d, _, completeFiles_nc hb d _, ?_,
        completeFiles_cas d _, lookup_casMetadata _ _ _ _ _ _ ?_, ?_, ?_⟩
      · rw [parseInt_digits hg] at hn
        rw [hglobals.number, ← Option.some.inj hn]
      · exact List.mem_of_getElem? (i := 17) rfl
      · rw [hname]
        exact lookup_casMetadata _ _ _ _ _ _ (List.mem_of_getElem? (i := 16) rfl)
      · rw [hname]
        exact lookup_casMetadata _ _ _ _ _ _ (List.mem_of_getElem? (i := 24) rfl)

end Convention

/-! ### A number with blanks around it -/

/-- A run whose number can be stored, on a config without groups of inputs, completes. -/
theorem run_main_complete {lib : Libraries D} (hlib : lib.Lawful) {configContents : Text} (r : Text)
    {p : DateTime} (files : Files D) {root : Element} {start u : DateTime} {g v b : Text}
    (hload : loadConfig lib configContents = .ok root) (hnames : Names root start g)
    (hv : getScalar root primaryExecutable "Version".toList = .ok v)
    (hbase : buildOutputBasename root p = .ok b) (hopens : (lib.create (ncPath b)).isSome = true)
    (hg : StorableNumber lib g) (hkept : Recordable lib root) (hend : granuleEnd start = .ok u)
    (hwrites : lib.writes (casPath b) = true) :
    ∃ d m, (main lib configContents p r).run files = .ok ⟨⟩ (completeFiles files b d m) := by
  obtain ⟨d, hcreate⟩ := Option.isSome_iff_exists.1 hopens
  obtain ⟨s, aux, input, hreads⟩ := exists_reads hnames hv
  obtain ⟨haux, hinput⟩ := (recordable_iff hreads).1 hkept
  obtain ⟨d', hfill, -⟩ := run_fillDataset_ok (s := s) (v := v) (r := r) hlib
    (blankness_of_create hlib hcreate) hg haux hinput (getGroupScalars_nodup hreads.aux)
    (getGroupScalars_nodup hreads.input)
  have hm := buildCasMetadata_of_end (b := b) (p := p) hnames hv hend
  exact ⟨d', _, (run_main_filled r files hload hbase hreads hcreate hfill).trans
    (run_writeCasFile_ok _ hm hwrites)⟩

/-- The run with the number ` 144 `, which `int()` accepts, completes with that text in its name. -/
theorem run_main_blanks (r : Text) :
    ∃ root b d m, loadConfig simpleLibraries (numberedConfig " 144 ") = .ok root ∧
      Names root granuleStart " 144 ".toList ∧ buildOutputBasename root repeatedReading = .ok b ∧
      (main simpleLibraries (numberedConfig " 144 ") repeatedReading r).run noFiles
        = .ok ⟨⟩ (completeFiles noFiles b d m) := by
  have htexts : configTexts simpleLibraries (numberedConfig " 144 ")
      = .ok (startText, " 144 ".toList, "6".toList) := by decide +kernel
  have hstart : strptime startText configTimeFormat = some granuleStart := by decide
  obtain ⟨root, hload, hnames, hversion⟩ := configTexts_ok htexts hstart
  have hbase := buildOutputBasename_ok_iff (p := repeatedReading).2 ⟨_, _, hnames, rfl⟩
  have hend : (granuleStart.add (granuleDurationMinutes * 60 * 1000000)).isSome = true := by
    decide
  obtain ⟨u, hu⟩ := Option.isSome_iff_exists.1 hend
  have hnumber : StorableNumber simpleLibraries " 144 ".toList := ⟨144, by decide, by decide⟩
  have hrecordable : Recordable simpleLibraries root := by
    have hgroups : ∀ root', loadConfig simpleLibraries (numberedConfig " 144 ") = .ok root' →
        ∀ group ∈ productGroups, getGroupScalars root' group false = .ok [] := by
      have hall : (loadConfig simpleLibraries (numberedConfig " 144 ")).toOption.all (fun root' =>
          productGroups.all fun group => decide (getGroupScalars root' group false = .ok [])) = true := by
        decide +kernel
      intro root' hload' group hgroup
      rw [hload'] at hall
      exact of_decide_eq_true (List.all_eq_true.1 hall group hgroup)
    intro group hgroup scalars hscalars e he
    obtain rfl := Except.ok.inj ((hgroups root hload group hgroup).symm.trans hscalars)
    exact absurd he List.not_mem_nil
  obtain ⟨d, m, hrun⟩ := run_main_complete lawful_simple r noFiles hload hnames hversion hbase
    (simple_opens (by decide +kernel) hnames hbase) hnumber hrecordable (granuleEnd_ok_iff.2 hu)
    (by decide +kernel)
  exact ⟨root, _, d, m, hload, hnames, hbase, hrun⟩

theorem followsConvention_fails_blanks :
    ∃ root b files', loadConfig simpleLibraries (numberedConfig " 144 ") = .ok root ∧
      buildOutputBasename root repeatedReading = .ok b ∧
      (main simpleLibraries (numberedConfig " 144 ") repeatedReading []).run noFiles
        = .ok ⟨⟩ files' ∧
      ¬ FollowsConvention simpleLibraries b files' := by
  obtain ⟨root, b, d, m, hload, hnames, hbase, hrun⟩ := run_main_blanks []
  refine ⟨root, b, _, hload, hbase, hrun, ?_⟩
  intro hconv
  obtain ⟨t, k, hnames', hb⟩ := buildOutputBasename_ok_iff.1 hbase
  obtain ⟨rfl, rfl⟩ := hnames.unique hnames'
  obtain ⟨date, clock, granule, st, hdate, hclock, hgranule, hst, hform, -⟩ := hconv.records
  have hdigits := (digits_of_form (hb.symm.trans hform) hdate hclock hgranule hst).1
  exact absurd hdigits (by decide)

theorem followsConvention_iff_blanks :
    ∃ files' root start g b, loadConfig simpleLibraries (numberedConfig " 144 ") = .ok root ∧
      Names root start g ∧ buildOutputBasename root repeatedReading = .ok b ∧
      (FollowsConvention simpleLibraries b files' ↔ IsDigits g ∧ 1000 ≤ start.date.year) := by
  obtain ⟨-, b, d, m, -, -, -, hrun⟩ := run_main_blanks []
  exact ⟨_, followsConvention_iff lawful_simple hrun⟩

end JosfraPge.Product.NamingConvention
