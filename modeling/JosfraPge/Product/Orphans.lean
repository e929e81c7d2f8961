import JosfraPge.Product.ProductRun

/-!
# Products without their metadata

The values of a config are checked before the product is opened, while it is open, and after it is
closed.

* `filesAfter_nc`, `filesAfter_cas_iff`: which of the two files are there when a run ends;
* `noOrphan_iff`: when a failed run leaves no product without its metadata.
-/

namespace JosfraPge.Product.Orphans

open JosfraPge.Foundation.LineText
open JosfraPge.Foundation.XmlTree
open JosfraPge.Foundation.XmlDocument
open JosfraPge.Foundation.CivilCalendar
open JosfraPge.Foundation.IntLiteral
open JosfraPge.Foundation.TimeFormat
open JosfraPge.Foundation.PosixPath
open JosfraPge.Foundation.RunRules
open JosfraPge.Foundation.Refinement
open JosfraPge.Config.ScalarReaders
open JosfraPge.Product.CasDocument
open JosfraPge.Product.OutputNames
open JosfraPge.Product.CasMetadata
open JosfraPge.Product.OpenDataset

open JosfraPge.Product.ProductRun

variable {D : Type}

/-! ## Orphans -/

/-- A CAS file with every key of the template. -/
def CompleteCas (contents : Text) : Prop :=
  ∃ m : Metadata, contents = renderCasMetadata m ∧ m.map Prod.fst = templateKeys

/-- When the run ends, the product is there if and only if its metadata are, and then both are
complete. -/
def NoOrphan (lib : Libraries D) (configContents : Text) (p : DateTime) (r : Text)
    (files : Files D) : Prop :=
  ∀ root b, loadConfig lib configContents = .ok root → buildOutputBasename root p = .ok b →
    ((filesAfter lib configContents p r files (ncPath b)).isSome = true ↔
      (filesAfter lib configContents p r files (casPath b)).isSome = true) ∧
    ((filesAfter lib configContents p r files (ncPath b)).isSome = true →
      (∃ d start g, filesAfter lib configContents p r files (ncPath b) = some (.netcdf d) ∧
        Names root start g ∧ CompleteDataset lib root g d) ∧
      ∃ t, filesAfter lib configContents p r files (casPath b) = some (.text t) ∧ CompleteCas t)

/-- The files do not hold the names of the run's products. -/
def FreshNames (lib : Libraries D) (configContents : Text) (p : DateTime) (files : Files D) : Prop :=
  ∀ root b, loadConfig lib configContents = .ok root → buildOutputBasename root p = .ok b →
    files (ncPath b) = none ∧ files (casPath b) = none

/-- Every scalar of the two groups of the product has a name that an attribute is stored under. -/
def Recordable (lib : Libraries D) (root : Element) : Prop :=
  ∀ group ∈ productGroups, ∀ scalars, getGroupScalars root group false = .ok scalars →
    KeptNames lib scalars

/-- None of them has a name that is kept on the Python object only. -/
def NoneElsewhere (lib : Libraries D) (root : Element) : Prop :=
  ∀ group ∈ productGroups, ∀ scalars, getGroupScalars root group false = .ok scalars →
    NotElsewhere lib scalars

/-- Once the config names a granule and a version and the product can be opened, the granule's number
can be stored, the scalars' names are kept, the granule ends in a year that exists and the metadata can
be written. -/
def Writable (lib : Libraries D) (configContents : Text) (p : DateTime) : Prop :=
  ∀ root start g v b, loadConfig lib configContents = .ok root → Names root start g →
    getScalar root primaryExecutable "Version".toList = .ok v → buildOutputBasename root p = .ok b →
    (lib.create (ncPath b)).isSome = true →
    StorableNumber lib g ∧ Recordable lib root ∧ (∃ u, granuleEnd start = .ok u) ∧
      lib.writes (casPath b) = true

section Orphans

variable {lib : Libraries D} {configContents r : Text} {p : DateTime} {files : Files D}

theorem recordable_iff {root : Element} {s g v : Text} {aux input : Dict}
    (h : Reads root s g v aux input) :
    Recordable lib root ↔ KeptNames lib aux ∧ KeptNames lib input := by
  constructor
  · intro hall
    exact ⟨hall _ aux_mem aux h.aux, hall _ input_mem input h.input⟩
  · intro hboth group hgroup scalars hscalars
    rcases List.mem_cons.1 hgroup with rfl | hgroup
    · obtain rfl := Except.ok.inj (h.aux.symm.trans hscalars)
      exact hboth.1
    · obtain rfl := List.mem_singleton.1 hgroup
      obtain rfl := Except.ok.inj (h.input.symm.trans hscalars)
      exact hboth.2

theorem buildCasMetadata_of_end {root : Element} {start u : DateTime} {g v b : Text}
    (hnames : Names root start g) (hv : getScalar root primaryExecutable "Version".toList = .ok v)
    (hend : granuleEnd start = .ok u) :
    buildCasMetadata root b p = .ok (casMetadata v g (ncName b) start u p) :=
  buildCasMetadata_ok_iff.2 ⟨start, g, v, u, hnames, hv, hend, rfl⟩

/-- A run that opens its product has it in place when it ends. -/
theorem filesAfter_nc (r : Text) (files : Files D) {root : Element} {s g v b : Text}
    {aux input : Dict} {d : D}
    (hload : loadConfig lib configContents = .ok root) (hbase : buildOutputBasename root p = .ok b)
    (hreads : Reads root s g v aux input) (hcreate : lib.create (ncPath b) = some d) :
    filesAfter lib configContents p r files (ncPath b)
      = some (.netcdf (stateAfter ((fillDataset lib g s v r aux input).run d))) := by
  obtain ⟨start', g', -, hb⟩ := buildOutputBasename_ok_iff.1 hbase
  unfold filesAfter
  cases hfill : (fillDataset lib g s v r aux input).run d with
  | error e d' =>
      rw [run_main_unfilled r files hload hbase hreads hcreate hfill]
      exact Function.update_self _ _ _
  | ok _ d' =>
      rw [run_main_filled r files hload hbase hreads hcreate hfill]
      by_cases hall : (∃ m, buildCasMetadata root b p = .ok m) ∧ lib.writes (casPath b) = true
      · obtain ⟨⟨m, hm⟩, hwrites⟩ := hall
        rw [run_writeCasFile_ok _ hm hwrites]
        exact completeFiles_nc hb d' m
      · obtain ⟨e, herror⟩ := run_writeCasFile_error (withDataset files (ncPath b) d') hall
        rw [herror]
        exact Function.update_self _ _ _

/-- Its metadata are in place when the dataset was written to the end and they can be made. -/
theorem filesAfter_cas_iff {root : Element} {s g v b : Text} {aux input : Dict} {d : D}
    (hload : loadConfig lib configContents = .ok root) (hbase : buildOutputBasename root p = .ok b)
    (hreads : Reads root s g v aux input) (hcreate : lib.create (ncPath b) = some d)
    (hfresh : files (casPath b) = none) :
    (filesAfter lib configContents p r files (casPath b)).isSome = true ↔
      (∃ d', (fillDataset lib g s v r aux input).run d = .ok ⟨⟩ d') ∧
        (∃ m, buildCasMetadata root b p = .ok m) ∧ lib.writes (casPath b) = true := by
  obtain ⟨start, _, -, hb⟩ := buildOutputBasename_ok_iff.1 hbase
  have hnone : ∀ d', withDataset files (ncPath b) d' (casPath b) = none := by
    intro d'
    rw [withDataset, Function.update_of_ne (ncPath_ne_casPath hb).symm, hfresh]
  unfold filesAfter
  cases hfill : (fillDataset lib g s v r aux input).run d with
  | error e d' =>
      rw [run_main_unfilled r files hload hbase hreads hcreate hfill]
      show (withDataset files (ncPath b) d' (casPath b)).isSome = true ↔ _
      rw [hnone]
      exact ⟨fun h => absurd h (by simp), fun h => absurd h.1.choose_spec (by simp)⟩
  | ok _ d' =>
      rw [run_main_filled r files hload hbase hreads hcreate hfill]
      by_cases hall : (∃ m, buildCasMetadata root b p = .ok m) ∧ lib.writes (casPath b) = true
      · obtain ⟨⟨m, hm⟩, hwrites⟩ := hall
        rw [run_writeCasFile_ok _ hm hwrites]
        have hcas : (stateAfter (EStateM.Result.ok (ε := PgeError) PUnit.unit
            (completeFiles files b d' m)) (casPath b)).isSome = true := by
          rw [stateAfter, completeFiles_cas]
          rfl
        exact ⟨fun _ => ⟨⟨d', rfl⟩, ⟨m, hm⟩, hwrites⟩, fun _ => hcas⟩
      · obtain ⟨e, herror⟩ := run_writeCasFile_error (withDataset files (ncPath b) d') hall
        rw [herror]
        show (withDataset files (ncPath b) d' (casPath b)).isSome = true ↔ _
        rw [hnone]
        exact ⟨fun h => absurd h (by simp), fun h => absurd h.2 hall⟩

/-- A run that cannot open its product leaves neither file. -/
theorem filesAfter_notOpened {root : Element} {s g v b : Text} {aux input : Dict}
    (hload : loadConfig lib configContents = .ok root) (hbase : buildOutputBasename root p = .ok b)
    (hreads : Reads root s g v aux input) (hcreate : lib.create (ncPath b) = none) :
    filesAfter lib configContents p r files = files := by
  rw [filesAfter, run_main_notOpened r files hload hbase hreads hcreate]
  rfl

/-- A product that is complete was written from a config that can be recorded. -/
theorem writable_of_noOrphan (hlib : lib.Lawful) (hfresh : FreshNames lib configContents p files)
    (hno : NoOrphan lib configContents p r files) : Writable lib configContents p := by
  intro root start g v b hload hnames hv hbase hopens
  obtain ⟨d, hcreate⟩ := Option.isSome_iff_exists.1 hopens
  obtain ⟨s, aux, input, hreads⟩ := exists_reads hnames hv
  have hblank := blankness_of_create hlib hcreate
  have hnc := filesAfter_nc r files hload hbase hreads hcreate
  have hsome : (filesAfter lib configContents p r files (ncPath b)).isSome = true := by
    rw [hnc]
    rfl
  obtain ⟨hiff, hcomplete⟩ := hno root b hload hbase
  obtain ⟨⟨d', start', g', hd', hnames', hdataset⟩, -⟩ := hcomplete hsome
  obtain ⟨-, ⟨m, hm⟩, hwrites⟩ := (filesAfter_cas_iff hload hbase hreads hcreate
    (hfresh root b hload hbase).2).1 (hiff.1 hsome)
  obtain ⟨rfl, rfl⟩ := hnames.unique hnames'
  obtain ⟨r', hfilled⟩ := hdataset.of_reads hreads
  rw [hnc] at hd'
  injection hd' with hd'
  injection hd' with hd'
  have hkept := fillDataset_inv (r := r) hlib hblank (hd' ▸ hfilled)
  obtain ⟨start'', _, _, u, hnames'', -, hend, -⟩ := buildCasMetadata_ok_iff.1 hm
  obtain ⟨rfl, -⟩ := hnames.unique hnames''
  exact ⟨hkept.1, (recordable_iff hreads).2 hkept.2, ⟨u, hend⟩, hwrites⟩

/-- A config that can be recorded gives both products or none. -/
theorem noOrphan_of_writable (hlib : lib.Lawful) (hfresh : FreshNames lib configContents p files)
    (hw : Writable lib configContents p) : NoOrphan lib configContents p r files := by
  intro root b hload hbase
  obtain ⟨hncFresh, hcasFresh⟩ := hfresh root b hload hbase
  obtain ⟨start, g, hnames, hb⟩ := buildOutputBasename_ok_iff.1 hbase
  cases hv : requireScalar root primaryExecutable "Version".toList with
  | error e =>
      have hrun := run_main_noVersion r files hload hnames hbase hv
      have hfiles : filesAfter lib configContents p r files = files := by
        rw [filesAfter, hrun]
        rfl
      rw [hfiles, hncFresh, hcasFresh]
      exact ⟨Iff.rfl, fun h => absurd h (by simp)⟩
  | ok v =>
      have hversion := requireScalar_ok_iff.1 hv
      obtain ⟨s, aux, input, hreads⟩ := exists_reads hnames hversion
      cases hcreate : lib.create (ncPath b) with
      | none =>
          rw [filesAfter_notOpened hload hbase hreads hcreate, hncFresh, hcasFresh]
          exact ⟨Iff.rfl, fun h => absurd h (by simp)⟩
      | some d =>
          obtain ⟨hnumber, hnamesKept, ⟨u, hend⟩, hwrites⟩ :=
            hw root start g v b hload hnames hversion hbase (by rw [hcreate]; rfl)
          obtain ⟨haux, hinput⟩ := (recordable_iff hreads).1 hnamesKept
          obtain ⟨d', hfill, hfilled⟩ := run_fillDataset_ok (s := s) (v := v) (r := r) hlib
            (blankness_of_create hlib hcreate) hnumber haux hinput (getGroupScalars_nodup hreads.aux)
            (getGroupScalars_nodup hreads.input)
          have hm := buildCasMetadata_of_end (b := b) (p := p) hnames hversion hend
          have hfiles : filesAfter lib configContents p r files
              = completeFiles files b d' (casMetadata v g (ncName b) start u p) := by
            rw [filesAfter, run_main_filled r files hload hbase hreads hcreate hfill,
              run_writeCasFile_ok _ hm hwrites]
            rfl
          rw [hfiles, completeFiles_nc hb, completeFiles_cas]
          exact ⟨Iff.rfl, fun _ => ⟨⟨d', start, g, rfl, hnames,
            ⟨s, v, r, aux, input, hreads, hfilled⟩⟩, _, rfl, _, rfl, rfl⟩⟩

/-- **Exactly when a run leaves no orphan**: its granule number can be stored, the scalars' names are
kept, its granule ends in a year that exists and the metadata can be written, once the config names a
granule and a version and the product can be opened. -/
theorem noOrphan_iff (hlib : lib.Lawful) (hfresh : FreshNames lib configContents p files) :
    NoOrphan lib configContents p r files ↔ Writable lib configContents p :=
  ⟨writable_of_noOrphan hlib hfresh, noOrphan_of_writable hlib hfresh⟩

end Orphans

/-! ### A number that `int()` rejects -/

/-- The plain libraries with the parser of config documents. -/
def simpleLibraries : Libraries PlainDataset := plainLibraries readDocument

theorem lawful_simple : simpleLibraries.Lawful := lawful_plain readDocument

/-- The texts every product needs, as a config has them: the start, the granule's number, the
version. -/
def configTexts (lib : Libraries D) (configContents : Text) : Except PgeError (Text × Text × Text) := do
  let root ← loadConfig lib configContents
  let startDateTime ← requireScalar root granuleIdentification "StartDateTime".toList
  let startGranuleNumber ← requireScalar root granuleIdentification "StartGranuleNumber".toList
  let version ← requireScalar root primaryExecutable "Version".toList
  return (startDateTime, startGranuleNumber, version)

theorem configTexts_ok {lib : Libraries D} {configContents s g v : Text} {start : DateTime}
    (h : configTexts lib configContents = .ok (s, g, v))
    (hs : strptime s configTimeFormat = some start) :
    ∃ root, loadConfig lib configContents = .ok root ∧ Names root start g ∧
      getScalar root primaryExecutable "Version".toList = .ok v := by
  obtain ⟨root, hload, h⟩ := except_bind_ok h
  obtain ⟨s', hs', h⟩ := except_bind_ok h
  obtain ⟨g', hg', h⟩ := except_bind_ok h
  obtain ⟨v', hv', h⟩ := except_bind_ok h
  obtain ⟨rfl, rfl, rfl⟩ : s' = s ∧ g' = g ∧ v' = v := by
    have heq := Except.ok.inj h
    exact ⟨congrArg Prod.fst heq, congrArg (fun x => x.2.1) heq, congrArg (fun x => x.2.2) heq⟩
  exact ⟨root, hload, ⟨⟨s', requireScalar_ok_iff.1 hs', hs⟩, requireScalar_ok_iff.1 hg'⟩,
    requireScalar_ok_iff.1 hv'⟩

/-- The scalars of a group, as a config has them. -/
def configGroup (lib : Libraries D) (configContents groupName : Text) : Except PgeError Dict := do
  let root ← loadConfig lib configContents
  optionalGroupScalars root groupName

/-- A group without a name that is kept elsewhere. -/
def plainGroup (lib : Libraries D) (configContents groupName : Text) : Bool :=
  match configGroup lib configContents groupName with
  | .ok scalars => scalars.all fun e => decide (lib.nameUse e.1 ≠ .elsewhere)
  | .error _ => true

theorem noneElsewhere_of_plainGroup {lib : Libraries D} {configContents : Text} {root : Element}
    (hload : loadConfig lib configContents = .ok root)
    (h : ∀ group ∈ productGroups, plainGroup lib configContents group = true) :
    NoneElsewhere lib root := by
  intro group hgroup scalars hscalars e he
  have hplain := h group hgroup
  rw [plainGroup, configGroup, except_bind_eq hload, optionalGroupScalars_ok_iff.2 hscalars] at hplain
  exact of_decide_eq_true (List.all_eq_true.1 hplain e he)

/-- A config with a granule number of any text. -/
def numberedConfig (number : String) : Text :=
  ("<input><group name=\"GranuleIdentification\">" ++
    "<scalar name=\"StartDateTime\">2013-01-03T14:22:42.000000Z</scalar>" ++
    "<scalar name=\"StartGranuleNumber\">" ++ number ++ "</scalar></group>" ++
    "<group name=\"PrimaryExecutable\"><scalar name=\"Version\">6</scalar></group></input>").toList

def startText : Text := "2013-01-03T14:22:42.000000Z".toList

def noFiles : Files D := fun _ => none

theorem freshNames_noFiles (lib : Libraries D) (configContents : Text) (p : DateTime) :
    FreshNames lib configContents p noFiles := fun _ _ _ _ => ⟨rfl, rfl⟩

/-- Where the number cannot be stored the product is an orphan. -/
theorem not_noOrphan_of_number {lib : Libraries D} (hlib : lib.Lawful) {configContents r : Text}
    {p : DateTime} {files : Files D} (hfresh : FreshNames lib configContents p files) {root : Element}
    {start : DateTime} {g v b : Text} (hload : loadConfig lib configContents = .ok root)
    (hnames : Names root start g) (hv : getScalar root primaryExecutable "Version".toList = .ok v)
    (hbase : buildOutputBasename root p = .ok b) (hopens : (lib.create (ncPath b)).isSome = true)
    (hg : ¬ StorableNumber lib g) : ¬ NoOrphan lib configContents p r files := by
  intro hno
  obtain ⟨d, hcreate⟩ := Option.isSome_iff_exists.1 hopens
  obtain ⟨s, aux, input, hreads⟩ := exists_reads hnames hv
  have hsome : (filesAfter lib configContents p r files (ncPath b)).isSome = true := by
    rw [filesAfter_nc r files hload hbase hreads hcreate]
    rfl
  obtain ⟨⟨d', hfill⟩, -⟩ := (filesAfter_cas_iff hload hbase hreads hcreate
    (hfresh root b hload hbase).2).1 ((hno root b hload hbase).1.1 hsome)
  obtain ⟨e, herror⟩ := run_fillDataset_badNumber s v r aux input d hlib hg
  exact absurd (herror.symm.trans hfill) (by simp)

theorem simple_opens {number : Text} (h : (simpleLibraries.create
    (ncPath (basenameText (timestamp granuleStart) number (stamp repeatedReading)))).isSome = true)
    {root : Element} {b : Text} (hnames : Names root granuleStart number)
    (hbase : buildOutputBasename root repeatedReading = .ok b) :
    (simpleLibraries.create (ncPath b)).isSome = true := by
  obtain ⟨t, k, hnames', hb⟩ := buildOutputBasename_ok_iff.1 hbase
  obtain ⟨rfl, rfl⟩ := hnames.unique hnames'
  rw [hb]
  exact h

/-- A granule number that is no integer literal leaves an empty product without metadata. -/
theorem noOrphan_fails_badNumber :
    FreshNames simpleLibraries (numberedConfig "144a") repeatedReading noFiles ∧
      ¬ NoOrphan simpleLibraries (numberedConfig "144a") repeatedReading [] noFiles := by
  have htexts : configTexts simpleLibraries (numberedConfig "144a")
      = .ok (startText, "144a".toList, "6".toList) := by
    decide +kernel
  have hstart : strptime startText configTimeFormat = some granuleStart := by decide
  obtain ⟨root, hload, hnames, hversion⟩ := configTexts_ok htexts hstart
  have hbase := buildOutputBasename_ok_iff (p := repeatedReading).2 ⟨_, _, hnames, rfl⟩
  have hfresh := freshNames_noFiles simpleLibraries (numberedConfig "144a") repeatedReading
  refine ⟨hfresh, not_noOrphan_of_number lawful_simple hfresh hload hnames hversion hbase
    (simple_opens (by decide +kernel) hnames hbase) ?_⟩
  intro hnumber
  obtain ⟨n, hn, -⟩ := hnumber
  have hnone : parseInt "144a".toList = none := by decide
  exact absurd (hnone.symm.trans hn) (by simp)

theorem noOrphan_iff_badNumber :
    NoOrphan simpleLibraries (numberedConfig "144a") repeatedReading [] noFiles ↔
      Writable simpleLibraries (numberedConfig "144a") repeatedReading :=
  noOrphan_iff lawful_simple (freshNames_noFiles _ _ _)

end JosfraPge.Product.Orphans
