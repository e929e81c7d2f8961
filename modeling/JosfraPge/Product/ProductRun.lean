import JosfraPge.Product.OpenDataset

/-!
# A run of the PGE and the files it leaves

`main` loads the config, names the products, writes the NetCDF file attribute by attribute, and then
the CAS file.  The state of a run is the files; a run that fails leaves them as the failing step found
them, with the dataset that was open closed.  The processing log is a third file with a name of its own
and is not part of the state.

* `fillDataset_complete_iff`: when a dataset is written to its end with everything in it;
* `run_main_*`: what every way a run can end leaves behind;
* `run_main_inv`: what a completed run has read and written.
-/

namespace JosfraPge.Product.ProductRun

open JosfraPge.Foundation.LineText
open JosfraPge.Foundation.XmlTree
open JosfraPge.Foundation.CivilCalendar
open JosfraPge.Foundation.IntLiteral
open JosfraPge.Foundation.TimeFormat
open JosfraPge.Foundation.PosixPath
open JosfraPge.Foundation.RunRules
open JosfraPge.Foundation.Refinement
open JosfraPge.Config.ScalarReaders
open JosfraPge.Product.CasDocument
open JosfraPge.Product.OutputNames
open JosfraPge.Product.CasMetadata
open JosfraPge.Product.OpenDataset

variable {D : Type}

/-! ## Files -/

/-- A file, where a dataset is of type `D`. -/
inductive File (D : Type) where
  | netcdf (d : D)
  | text (contents : Text)

abbrev Files (D : Type) := PurePath → Option (File D)

/-- A program that reads and writes files and can fail. -/
abbrev Pge (D : Type) := EStateM PgeError (Files D)

/-- The files with a dataset at a path. -/
def withDataset (files : Files D) (path : PurePath) (d : D) : Files D :=
  Function.update files path (some (.netcdf d))

/-- `int(s)` -/
def requireInt (s : Text) : Except PgeError ℤ := (parseInt s).elim (.error (.badInteger s)) .ok

/-- `get_group_scalars(root, group_name, required=False)` -/
def optionalGroupScalars (root : Element) (groupName : Text) : Except PgeError Dict :=
  (getGroupScalars root groupName false).mapError .lookup

section Program

variable (lib : Libraries D)

/-- `with Dataset(path, "w") as dataset`: the file is there from the opening on, and is closed however the
block ends. -/
def withOpen (path : PurePath) (block : Open D PUnit) : Pge D PUnit := fun files =>
  match lib.create path with
  | none => .error (.notOpened path) files
  | some d =>
      match block.run d with
      | .ok _ d' => .ok ⟨⟩ (withDataset files path d')
      | .error e d' => .error e (withDataset files path d')

/-- `path.write_text(contents)` -/
def writeText (path : PurePath) (contents : Text) : Pge D PUnit := fun files =>
  if lib.writes path then .ok ⟨⟩ (Function.update files path (some (.text contents)))
  else .error (.notWritten path) files

/-! ## Writing the products -/

/-- The block of `write_netcdf` on the open dataset. -/
def fillDataset (startGranuleNumber startDateTime version randomString : Text)
    (dynamicAuxFiles inputFiles : Dict) : Open D PUnit := do
  let number ← ofExcept (requireInt startGranuleNumber)
  writeGlobals lib number startDateTime version randomString
  writeGroup lib dynamicAuxiliaryInputFiles dynamicAuxFiles
  writeGroup lib inputProductFiles inputFiles

/-- `write_netcdf`, with the random string it draws.  How a scalar and an optional group are read and how
the files are reached is left to the program it is part of. -/
def netcdfProgram {m : Type → Type} [Monad m] (require : Except PgeError Text → m Text)
    (groupScalars : Text → m Dict) (onFiles : Pge D PUnit → m PUnit) (root : Element)
    (outputPath : PurePath) (randomString : Text) : m PUnit := do
  let startDateTime ← require (requireScalar root granuleIdentification "StartDateTime".toList)
  let startGranuleNumber ←
    require (requireScalar root granuleIdentification "StartGranuleNumber".toList)
  let version ← require (requireScalar root primaryExecutable "Version".toList)
  let dynamicAuxFiles ← groupScalars dynamicAuxiliaryInputFiles
  let inputFiles ← groupScalars inputProductFiles
  onFiles (withOpen lib outputPath
    (fillDataset lib startGranuleNumber startDateTime version randomString dynamicAuxFiles inputFiles))

/-- `write_netcdf`, without its notices. -/
def writeNetcdf (root : Element) (outputPath : PurePath) (randomString : Text) : Pge D PUnit :=
  netcdfProgram lib ofExcept (fun groupName => ofExcept (optionalGroupScalars root groupName)) id root
    outputPath randomString

/-- `write_cas_file` -/
def writeCasFile (root : Element) (outputPath : PurePath) (basename : Text)
    (productionTime : DateTime) : Pge D PUnit := do
  let metadata ← ofExcept (buildCasMetadata root basename productionTime)
  writeText lib outputPath (renderCasMetadata metadata)

/-- The config's root, unless the file is blank or no XML document. -/
def loadConfig (configContents : Text) : Except PgeError Element :=
  if configContents.all isStripSpace then .error .emptyConfig
  else (lib.parse configContents).elim (.error .malformedConfig) .ok

/-- `main`, from the config's contents on. -/
def main (configContents : Text) (productionTime : DateTime) (randomString : Text) :
    Pge D PUnit := do
  let root ← ofExcept (loadConfig lib configContents)
  let basename ← ofExcept (buildOutputBasename root productionTime)
  writeNetcdf lib root (ncPath basename) randomString
  writeCasFile lib root (casPath basename) basename productionTime

end Program

/-! ## Filling the dataset -/

theorem optionalGroupScalars_ok_iff {root : Element} {groupName : Text} {d : Dict} :
    optionalGroupScalars root groupName = .ok d ↔ getGroupScalars root groupName false = .ok d := by
  unfold optionalGroupScalars
  cases getGroupScalars root groupName false <;> simp [Except.mapError]

theorem requireInt_ok_iff {s : Text} {n : ℤ} : requireInt s = .ok n ↔ parseInt s = some n := by
  unfold requireInt
  cases parseInt s <;> simp

theorem requireInt_none {s : Text} (h : parseInt s = none) :
    requireInt s = .error (.badInteger s) := by
  rw [requireInt, h]
  rfl

/-- A granule number that `int()` accepts and an attribute can hold. -/
def StorableNumber (lib : Libraries D) (g : Text) : Prop :=
  ∃ n, parseInt g = some n ∧ lib.takesNumber n = true

/-- Every name is one that an attribute is stored under. -/
def KeptNames (lib : Libraries D) (scalars : Dict) : Prop := ∀ e ∈ scalars, lib.nameUse e.1 = .kept

/-- No name is one that is kept on the Python object only. -/
def NotElsewhere (lib : Libraries D) (scalars : Dict) : Prop :=
  ∀ e ∈ scalars, lib.nameUse e.1 ≠ .elsewhere

/-- A dataset with the global attributes of a product and both groups with everything in them. -/
structure Filled (lib : Libraries D) (g s v r : Text) (aux input : Dict) (d : D) : Prop where
  globals : ∃ n, parseInt g = some n ∧ Globals lib n s v r d
  aux_there : lib.hasGroup d dynamicAuxiliaryInputFiles = true
  aux : ∀ e ∈ aux, lib.groupAttr d dynamicAuxiliaryInputFiles e.1 = some e.2
  input_there : lib.hasGroup d inputProductFiles = true
  input : ∀ e ∈ input, lib.groupAttr d inputProductFiles e.1 = some e.2

/-- A dataset that has just been opened. -/
structure Blankness (lib : Libraries D) (d : D) : Prop where
  attr : ∀ name, lib.attr d name = none
  hasGroup : ∀ group, lib.hasGroup d group = false

section Filling

variable {lib : Libraries D} {g s v r : Text} {aux input : Dict} {d d' : D}

theorem blankness_of_create (hlib : lib.Lawful) {path : PurePath} (h : lib.create path = some d) :
    Blankness lib d := ⟨hlib.create_attr h, hlib.create_hasGroup h⟩

/-- What the block has done when it comes to the groups. -/
theorem run_fillDataset_globals (s v r : Text) (aux input : Dict) (hlib : lib.Lawful) {n : ℤ}
    (hn : parseInt g = some n) (hnumber : lib.takesNumber n = true) (hblank : Blankness lib d) :
    ∃ d₁, Globals lib n s v r d₁ ∧ (∀ group, lib.hasGroup d₁ group = false) ∧
      (fillDataset lib g s v r aux input).run d
        = (do writeGroup lib dynamicAuxiliaryInputFiles aux
              writeGroup lib inputProductFiles input : Open D PUnit).run d₁ := by
  obtain ⟨d₁, hrun, hglobals, hgroups, -⟩ := writeGlobals_ok hlib hnumber s v r d
  refine ⟨d₁, hglobals, ?_, ?_⟩
  · intro group
    rw [hgroups]
    exact hblank.hasGroup group
  · rw [fillDataset, run_ofExcept_ok (requireInt_ok_iff.2 hn), run_bind_ok hrun]

/-- A number that cannot be stored is found out with the dataset empty. -/
theorem run_fillDataset_badNumber (s v r : Text) (aux input : Dict) (d : D) (hlib : lib.Lawful)
    (hg : ¬ StorableNumber lib g) :
    ∃ e, (fillDataset lib g s v r aux input).run d = .error e d := by
  cases hn : parseInt g with
  | none => exact ⟨_, by rw [fillDataset, run_ofExcept_error (requireInt_none hn)]⟩
  | some n =>
      have hrefused : lib.takesNumber n = false := by
        cases hnumber : lib.takesNumber n with
        | true => exact absurd ⟨n, hn, hnumber⟩ hg
        | false => rfl
      refine ⟨.notStored startGranuleNumberName, ?_⟩
      rw [fillDataset, run_ofExcept_ok (requireInt_ok_iff.2 hn),
        run_bind_error (writeGlobals_refused hlib hrefused s v r d)]

theorem aux_mem : dynamicAuxiliaryInputFiles ∈ productGroups := List.mem_cons_self

theorem input_mem : inputProductFiles ∈ productGroups := List.mem_cons_of_mem _ List.mem_cons_self

theorem input_ne_aux : inputProductFiles ≠ dynamicAuxiliaryInputFiles := by
  decide

/-- The second group is new when the first has been written. -/
theorem hasGroup_input {d₁ d₂ : D} (hnew : ∀ group, lib.hasGroup d₁ group = false)
    (h : GroupAdded lib dynamicAuxiliaryInputFiles d₁ d₂) :
    lib.hasGroup d₂ inputProductFiles = false := by
  rw [h.hasGroup, hnew, decide_eq_false input_ne_aux]
  rfl

/-- **The block fills the dataset** when the number can be stored and every name is kept. -/
theorem run_fillDataset_ok (hlib : lib.Lawful) (hblank : Blankness lib d)
    (hg : StorableNumber lib g) (haux : KeptNames lib aux) (hinput : KeptNames lib input)
    (hauxKeys : (aux.map Prod.fst).Nodup) (hinputKeys : (input.map Prod.fst).Nodup) :
    ∃ d', (fillDataset lib g s v r aux input).run d = .ok ⟨⟩ d' ∧
      Filled lib g s v r aux input d' := by
  obtain ⟨n, hn, hnumber⟩ := hg
  obtain ⟨d₁, hglobals, hnew, hrun⟩ := run_fillDataset_globals s v r aux input hlib hn hnumber
    hblank
  obtain ⟨d₂, hrun₂, hall₂⟩ := writeGroup_ok hlib aux_mem haux hauxKeys (hnew _)
  have hadded₂ := groupAdded_of_ok hlib aux_mem (hnew _) hrun₂
  have hnew₂ := hasGroup_input hnew hadded₂
  obtain ⟨d₃, hrun₃, hall₃⟩ := writeGroup_ok hlib input_mem hinput hinputKeys hnew₂
  have hadded₃ := groupAdded_of_ok hlib input_mem hnew₂ hrun₃
  refine ⟨d₃, by rw [hrun, run_bind_ok hrun₂, hrun₃], ⟨n, hn, ?_⟩, ?_, ?_, ?_, hall₃⟩
  · exact (hglobals.congr hadded₂.attr).congr hadded₃.attr
  · rw [hadded₃.hasGroup, hadded₂.hasGroup, decide_eq_true rfl, Bool.true_or, Bool.or_true]
  · intro e he
    have hkeep := congrFun (hadded₃.others _ input_ne_aux.symm) e.1
    exact hkeep.trans (hall₂ e he)
  · rw [hadded₃.hasGroup, decide_eq_true rfl, Bool.true_or]

/-- A block that comes to its end has stored the global attributes. -/
theorem run_fillDataset_inv (hlib : lib.Lawful) (hblank : Blankness lib d)
    (h : (fillDataset lib g s v r aux input).run d = .ok ⟨⟩ d') :
    ∃ n, parseInt g = some n ∧ lib.takesNumber n = true ∧ Globals lib n s v r d' := by
  by_cases hg : StorableNumber lib g
  · obtain ⟨n, hn, hnumber⟩ := hg
    obtain ⟨d₁, hglobals, hnew, hrun⟩ := run_fillDataset_globals s v r aux input hlib hn hnumber
      hblank
    rw [hrun] at h
    obtain ⟨_, d₂, hrun₂, hrun₃⟩ := run_bind_inv h
    have hadded₂ := groupAdded_of_ok hlib aux_mem (hnew _) hrun₂
    have hadded₃ := groupAdded_of_ok hlib input_mem (hasGroup_input hnew hadded₂) hrun₃
    exact ⟨n, hn, hnumber, (hglobals.congr hadded₂.attr).congr hadded₃.attr⟩
  · obtain ⟨e, herror⟩ := run_fillDataset_badNumber s v r aux input d hlib hg
    exact absurd (herror.symm.trans h) (by simp)

/-- **What is filled was written to the end**, with a number that can be stored and names that are
kept. -/
theorem fillDataset_inv (hlib : lib.Lawful) (hblank : Blankness lib d) {r' : Text}
    (h : Filled lib g s v r' aux input (stateAfter ((fillDataset lib g s v r aux input).run d))) :
    StorableNumber lib g ∧ KeptNames lib aux ∧ KeptNames lib input := by
  by_cases hg : StorableNumber lib g
  · refine ⟨hg, ?_⟩
    obtain ⟨n, hn, hnumber⟩ := hg
    obtain ⟨d₁, hglobals, hnew, hrun⟩ := run_fillDataset_globals s v r aux input hlib hn hnumber
      hblank
    rw [hrun] at h
    cases hrun₂ : (writeGroup lib dynamicAuxiliaryInputFiles aux).run d₁ with
    | error e d₂ =>
        have hadded₂ := writeGroup_keeps hlib aux_mem aux (hnew dynamicAuxiliaryInputFiles)
        rw [hrun₂] at hadded₂
        rw [run_bind_error hrun₂] at h
        have hthere := h.input_there
        rw [hasGroup_input hnew hadded₂] at hthere
        exact absurd hthere Bool.false_ne_true
    | ok _ d₂ =>
        have hadded₂ := groupAdded_of_ok hlib aux_mem (hnew _) hrun₂
        rw [run_bind_ok hrun₂] at h
        have hadded₃ := writeGroup_keeps hlib input_mem input (hasGroup_input hnew hadded₂)
        constructor
        · intro e he
          by_contra hunkept
          have hstored := h.aux e he
          rw [hadded₃.others _ input_ne_aux.symm] at hstored
          have hnone : lib.groupAttr d₂ dynamicAuxiliaryInputFiles e.1 = none :=
            hadded₂.unkept e.1 hunkept
          rw [hnone] at hstored
          exact absurd hstored (by simp)
        · intro e he
          by_contra hunkept
          have hstored := h.input e he
          rw [hadded₃.unkept e.1 hunkept] at hstored
          exact absurd hstored (by simp)
  · obtain ⟨e, herror⟩ := run_fillDataset_badNumber s v r aux input d hlib hg
    rw [herror] at h
    obtain ⟨n, -, hglobals⟩ := h.globals
    have hnumber : lib.attr d startGranuleNumberName = some (.number n) := hglobals.number
    rw [hblank.attr] at hnumber
    exact absurd hnumber (by simp)

end Filling

/-! ## How writing the NetCDF file ends -/

/-- What `write_netcdf` reads of a config. -/
structure Reads (root : Element) (s g v : Text) (aux input : Dict) : Prop where
  time : getScalar root granuleIdentification "StartDateTime".toList = .ok s
  number : getScalar root granuleIdentification "StartGranuleNumber".toList = .ok g
  version : getScalar root primaryExecutable "Version".toList = .ok v
  aux : getGroupScalars root dynamicAuxiliaryInputFiles false = .ok aux
  input : getGroupScalars root inputProductFiles false = .ok input

section WriteNetcdf

variable {lib : Libraries D} {root : Element} {s g v r : Text} {aux input : Dict} {files files' : Files D}
  {path : PurePath}

theorem run_writeNetcdf (h : Reads root s g v aux input) :
    (writeNetcdf lib root path r).run files
      = (withOpen lib path (fillDataset lib g s v r aux input)).run files := by
  rw [writeNetcdf, netcdfProgram, run_ofExcept_ok (requireScalar_ok_iff.2 h.time),
    run_ofExcept_ok (requireScalar_ok_iff.2 h.number),
    run_ofExcept_ok (requireScalar_ok_iff.2 h.version),
    run_ofExcept_ok (optionalGroupScalars_ok_iff.2 h.aux),
    run_ofExcept_ok (optionalGroupScalars_ok_iff.2 h.input)]
  rfl

/-- A config without a version is found out before the file is opened. -/
theorem run_writeNetcdf_noVersion
    (hs : getScalar root granuleIdentification "StartDateTime".toList = .ok s)
    (hg : getScalar root granuleIdentification "StartGranuleNumber".toList = .ok g) {e : PgeError}
    (hv : requireScalar root primaryExecutable "Version".toList = .error e) :
    (writeNetcdf lib root path r).run files = .error e files := by
  rw [writeNetcdf, netcdfProgram, run_ofExcept_ok (requireScalar_ok_iff.2 hs),
    run_ofExcept_ok (requireScalar_ok_iff.2 hg), run_ofExcept_error hv]

/-- Everything is read before the file is opened. -/
theorem run_writeNetcdf_reads (h : (writeNetcdf lib root path r).run files = .ok ⟨⟩ files') :
    ∃ s g v aux input, Reads root s g v aux input := by
  obtain ⟨s, hs, hrest⟩ := run_ofExcept_inv h
  obtain ⟨g, hg, hrest⟩ := run_ofExcept_inv hrest
  obtain ⟨v, hv, -⟩ := run_ofExcept_inv hrest
  obtain ⟨aux, haux⟩ := getGroupScalars_optional root dynamicAuxiliaryInputFiles
  obtain ⟨input, hinput⟩ := getGroupScalars_optional root inputProductFiles
  exact ⟨s, g, v, aux, input, requireScalar_ok_iff.1 hs, requireScalar_ok_iff.1 hg,
    requireScalar_ok_iff.1 hv, haux, hinput⟩

variable {block : Open D PUnit} {d d' : D}

theorem run_withOpen_none (h : lib.create path = none) :
    (withOpen lib path block).run files = .error (.notOpened path) files := by
  show withOpen lib path block files = _
  rw [withOpen, h]

theorem run_withOpen_ok (h : lib.create path = some d) (hblock : block.run d = .ok ⟨⟩ d') :
    (withOpen lib path block).run files = .ok ⟨⟩ (withDataset files path d') := by
  show withOpen lib path block files = _
  rw [withOpen, h]
  simp only [hblock]

theorem run_withOpen_error (h : lib.create path = some d) {e : PgeError}
    (hblock : block.run d = .error e d') :
    (withOpen lib path block).run files = .error e (withDataset files path d') := by
  show withOpen lib path block files = _
  rw [withOpen, h]
  simp only [hblock]

/-- A block that has come to its end was run on a dataset that could be opened. -/
theorem run_withOpen_inv (h : (withOpen lib path block).run files = .ok ⟨⟩ files') :
    ∃ d d', lib.create path = some d ∧ block.run d = .ok ⟨⟩ d' ∧
      files' = withDataset files path d' := by
  cases hcreate : lib.create path with
  | none => exact absurd ((run_withOpen_none hcreate).symm.trans h) (by simp)
  | some d =>
      cases hblock : block.run d with
      | error e d' => exact absurd ((run_withOpen_error hcreate hblock).symm.trans h) (by simp)
      | ok _ d' =>
          have heq := (run_withOpen_ok hcreate hblock).symm.trans h
          injection heq with _ hfiles
          exact ⟨d, d', rfl, hblock, hfiles.symm⟩

end WriteNetcdf

/-! ## How a run ends -/

section Main

variable {lib : Libraries D} {configContents r : Text} {p : DateTime} {files files' : Files D}
  {root : Element} {b : Text}

/-- A run that cannot load its config or name its products changes no file. -/
theorem run_main_early {e : PgeError}
    (h : (loadConfig lib configContents >>= fun root => buildOutputBasename root p) = .error e) :
    (main lib configContents p r).run files = .error e files := by
  cases hload : loadConfig lib configContents with
  | error e' =>
      rw [except_bind_error hload] at h
      rw [main, run_ofExcept_error hload, Except.error.inj h]
  | ok root =>
      rw [except_bind_eq hload] at h
      rw [main, run_ofExcept_ok hload, run_ofExcept_error h]

theorem run_main_named (hload : loadConfig lib configContents = .ok root)
    (hbase : buildOutputBasename root p = .ok b) :
    (main lib configContents p r).run files
      = (do writeNetcdf lib root (ncPath b) r
            writeCasFile lib root (casPath b) b p : Pge D PUnit).run files := by
  rw [main, run_ofExcept_ok hload, run_ofExcept_ok hbase]

/-- The files a run leaves, however it ends. -/
def filesAfter (lib : Libraries D) (configContents : Text) (p : DateTime) (r : Text)
    (files : Files D) : Files D :=
  stateAfter ((main lib configContents p r).run files)

/-- The files of a run that completes, beside those that were there. -/
def completeFiles (files : Files D) (b : Text) (d : D) (m : Metadata) : Files D :=
  Function.update (withDataset files (ncPath b) d) (casPath b) (some (.text (renderCasMetadata m)))

theorem run_writeCasFile_ok {m : Metadata} {path : PurePath} (files : Files D)
    (hm : buildCasMetadata root b p = .ok m) (hwrites : lib.writes path = true) :
    (writeCasFile lib root path b p).run files
      = .ok ⟨⟩ (Function.update files path (some (.text (renderCasMetadata m)))) := by
  rw [writeCasFile, run_ofExcept_ok hm]
  exact if_pos hwrites

/-- Metadata that cannot be built or written leave the files as they are. -/
theorem run_writeCasFile_error {path : PurePath} (files : Files D)
    (h : ¬ ((∃ m, buildCasMetadata root b p = .ok m) ∧ lib.writes path = true)) :
    ∃ e, (writeCasFile lib root path b p).run files = .error e files := by
  cases hm : buildCasMetadata root b p with
  | error e => exact ⟨e, by rw [writeCasFile, run_ofExcept_error hm]⟩
  | ok m =>
      have hwrites : ¬ lib.writes path = true := fun hw => h ⟨⟨m, hm⟩, hw⟩
      refine ⟨.notWritten path, ?_⟩
      rw [writeCasFile, run_ofExcept_ok hm]
      exact if_neg hwrites

theorem run_writeCasFile_inv {path : PurePath}
    (h : (writeCasFile lib root path b p).run files = .ok ⟨⟩ files') :
    ∃ m, buildCasMetadata root b p = .ok m ∧ lib.writes path = true ∧
      files' = Function.update files path (some (.text (renderCasMetadata m))) := by
  by_cases hall : (∃ m, buildCasMetadata root b p = .ok m) ∧ lib.writes path = true
  · obtain ⟨⟨m, hm⟩, hwrites⟩ := hall
    have heq := (run_writeCasFile_ok files hm hwrites).symm.trans h
    injection heq with _ hfiles
    exact ⟨m, hm, hwrites, hfiles.symm⟩
  · obtain ⟨e, herror⟩ := run_writeCasFile_error files hall
    exact absurd (herror.symm.trans h) (by simp)

section Named

variable {start : DateTime} {s g v : Text} {aux input : Dict} {d d' : D} (r files)

theorem run_main_noVersion (hload : loadConfig lib configContents = .ok root)
    (hnames : Names root start g) (hbase : buildOutputBasename root p = .ok b) {e : PgeError}
    (hv : requireScalar root primaryExecutable "Version".toList = .error e) :
    (main lib configContents p r).run files = .error e files := by
  obtain ⟨⟨s, hs, -⟩, hg⟩ := hnames
  rw [run_main_named hload hbase, run_bind_error (run_writeNetcdf_noVersion hs hg hv)]

/-- A product that cannot be opened leaves no file. -/
theorem run_main_notOpened (hload : loadConfig lib configContents = .ok root)
    (hbase : buildOutputBasename root p = .ok b) (hreads : Reads root s g v aux input)
    (hcreate : lib.create (ncPath b) = none) :
    (main lib configContents p r).run files = .error (.notOpened (ncPath b)) files := by
  have hwrite : (writeNetcdf lib root (ncPath b) r).run files
      = .error (.notOpened (ncPath b)) files :=
    (run_writeNetcdf hreads).trans (run_withOpen_none hcreate)
  rw [run_main_named hload hbase, run_bind_error hwrite]

/-- A block that fails leaves the dataset as it is then. -/
theorem run_main_unfilled (hload : loadConfig lib configContents = .ok root)
    (hbase : buildOutputBasename root p = .ok b) (hreads : Reads root s g v aux input)
    (hcreate : lib.create (ncPath b) = some d) {e : PgeError}
    (hfill : (fillDataset lib g s v r aux input).run d = .error e d') :
    (main lib configContents p r).run files = .error e (withDataset files (ncPath b) d') := by
  have hwrite : (writeNetcdf lib root (ncPath b) r).run files
      = .error e (withDataset files (ncPath b) d') :=
    (run_writeNetcdf hreads).trans (run_withOpen_error hcreate hfill)
  rw [run_main_named hload hbase, run_bind_error hwrite]

/-- With the dataset written, the run ends as its metadata do. -/
theorem run_main_filled (hload : loadConfig lib configContents = .ok root)
    (hbase : buildOutputBasename root p = .ok b) (hreads : Reads root s g v aux input)
    (hcreate : lib.create (ncPath b) = some d)
    (hfill : (fillDataset lib g s v r aux input).run d = .ok ⟨⟩ d') :
    (main lib configContents p r).run files
      = (writeCasFile lib root (casPath b) b p).run (withDataset files (ncPath b) d') := by
  have hwrite : (writeNetcdf lib root (ncPath b) r).run files
      = .ok ⟨⟩ (withDataset files (ncPath b) d') :=
    (run_writeNetcdf hreads).trans (run_withOpen_ok hcreate hfill)
  rw [run_main_named hload hbase, run_bind_ok hwrite]

end Named

/-- A dataset with every global attribute, and with both groups as the config lists them. -/
structure CompleteDataset (lib : Libraries D) (root : Element) (g : Text) (d : D) : Prop where
  filled : ∃ s v r aux input, Reads root s g v aux input ∧ Filled lib g s v r aux input d

/-- A complete dataset holds what is read of its config. -/
theorem CompleteDataset.of_reads {s g v : Text} {aux input : Dict} {d : D}
    (h : CompleteDataset lib root g d) (hreads : Reads root s g v aux input) :
    ∃ r, Filled lib g s v r aux input d := by
  obtain ⟨s', v', r, aux', input', hreads', hfilled⟩ := h.filled
  obtain rfl := Except.ok.inj (hreads.time.symm.trans hreads'.time)
  obtain rfl := Except.ok.inj (hreads.version.symm.trans hreads'.version)
  obtain rfl := Except.ok.inj (hreads.aux.symm.trans hreads'.aux)
  obtain rfl := Except.ok.inj (hreads.input.symm.trans hreads'.input)
  exact ⟨r, hfilled⟩

/-- **What a completed run has read and written.** -/
theorem run_main_inv (h : (main lib configContents p r).run files = .ok ⟨⟩ files') :
    ∃ root start s g v aux input b d d' m, loadConfig lib configContents = .ok root ∧
      Names root start g ∧ Reads root s g v aux input ∧ buildOutputBasename root p = .ok b ∧
      lib.create (ncPath b) = some d ∧ (fillDataset lib g s v r aux input).run d = .ok ⟨⟩ d' ∧
      buildCasMetadata root b p = .ok m ∧ files' = completeFiles files b d' m := by
  obtain ⟨root, hload, hnamed⟩ := run_ofExcept_inv h
  obtain ⟨b, hbase, hproducts⟩ := run_ofExcept_inv hnamed
  obtain ⟨_, files₁, hnetcdf, hcas⟩ := run_bind_inv hproducts
  obtain ⟨start, g, hnames, -⟩ := buildOutputBasename_ok_iff.1 hbase
  obtain ⟨s, g', v, aux, input, hreads⟩ := run_writeNetcdf_reads hnetcdf
  obtain rfl : g' = g := Except.ok.inj (hreads.number.symm.trans hnames.number)
  rw [run_writeNetcdf hreads] at hnetcdf
  obtain ⟨d, d', hcreate, hfill, rfl⟩ := run_withOpen_inv hnetcdf
  obtain ⟨m, hm, -, rfl⟩ := run_writeCasFile_inv hcas
  exact ⟨root, start, s, _, v, aux, input, b, d, d', m, hload, hnames, hreads, hbase, hcreate, hfill, hm,
    rfl⟩

theorem completeFiles_nc {ts g st : Text} (hb : b = basenameText ts g st) (d : D)
    (m : Metadata) : completeFiles files b d m (ncPath b) = some (.netcdf d) := by
  rw [completeFiles, Function.update_of_ne (ncPath_ne_casPath hb)]
  exact Function.update_self _ _ _

theorem completeFiles_cas (d : D) (m : Metadata) :
    completeFiles files b d m (casPath b) = some (.text (renderCasMetadata m)) :=
  Function.update_self _ _ _

/-- Which products a run finds its names for, and what it reads, is one. -/
theorem exists_reads {start : DateTime} {g v : Text} (hnames : Names root start g)
    (hv : getScalar root primaryExecutable "Version".toList = .ok v) :
    ∃ s aux input, Reads root s g v aux input := by
  obtain ⟨⟨s, hs, -⟩, hg⟩ := hnames
  obtain ⟨aux, haux⟩ := getGroupScalars_optional root dynamicAuxiliaryInputFiles
  obtain ⟨input, hinput⟩ := getGroupScalars_optional root inputProductFiles
  exact ⟨s, aux, input, hs, hg, hv, haux, hinput⟩

end Main

end JosfraPge.Product.ProductRun
