import JosfraPge.Launcher.Script
import JosfraPge.Launcher.ReadBack
import JosfraPge.Product.Processing
import JosfraPge.Product.SameNames

/-!
# From the launcher to the products

The launcher points the scalars of a copied config at the staged inputs, and the PGE makes its products
from that copy.

* `Ending`: how a run ends, apart from the files that were there;
* `main_repointed`: the ending of a run on the edited config is that of a run on the original, with the
  staged paths in the groups of the dataset;
* `pipeline_products`: the launcher and the whole PGE together.
-/

namespace JosfraPge.System.Pipeline

open JosfraPge.Foundation.LineText
open JosfraPge.Foundation.CivilCalendar
open JosfraPge.Foundation.IntLiteral
open JosfraPge.Foundation.PosixPath
open JosfraPge.Foundation.XmlScan
open JosfraPge.Foundation.XmlEncoding
open JosfraPge.Foundation.XmlTree
open JosfraPge.Foundation.XmlDocument
open JosfraPge.Foundation.DirectoryTree
open JosfraPge.Foundation.RunRules
open JosfraPge.Foundation.Refinement
open JosfraPge.Config.ScalarReaders
open JosfraPge.Launcher.SetConfigScalar
open JosfraPge.Launcher.LaunchRun
open JosfraPge.Launcher.ArgumentLoop
open JosfraPge.Launcher.Script
open JosfraPge.Launcher.ReadBack
open JosfraPge.Product.CasDocument
open JosfraPge.Product.OutputNames
open JosfraPge.Product.CasMetadata
open JosfraPge.Product.OpenDataset
open JosfraPge.Product.ProductRun
open JosfraPge.Product.Orphans
open JosfraPge.Product.SameNames
open JosfraPge.Product.Processing hiding main writeNetcdf
open JosfraPge.Remote.ConfigDownload
open JosfraPge.Remote.ConfigSource

variable {D : Type}

/-! ## Configs that load -/

/-- Without markup there is no document. -/
theorem readPieces_nil (last : Text) : readPieces ([], last) = none := by
  show (if last.all isSpace then some initialState else none).bind _ = none
  split <;> rfl

/-- A document that is read has a tag, so it is not blank. -/
theorem not_blank_of_read {reader : Reader} {doc : Text} {root : Element}
    (h : readWith reader doc = some root) : doc.all isStripSpace = false := by
  obtain ⟨⟨ps, last⟩, d, qs, hpieces, -, -, hcarry, hroot⟩ := readWith_iff.1 h
  obtain ⟨raw, rawLast, enc, hscan, -, hdecode, -⟩ := decodedPieces_eq.1 hpieces
  obtain ⟨htext, hraw, -⟩ := scan_sound hscan
  cases raw with
  | nil =>
      obtain rfl : ps = [] := (Option.some.inj hdecode).symm
      obtain rfl : qs = [] := (Option.some.inj hcarry).symm
      exact absurd ((readPieces_nil last).symm.trans hroot) (by simp)
  | cons q raw =>
      have hends := isMarkup_ends (hraw q List.mem_cons_self).2
      have hmark : '>' ∈ dropMark doc := by
        rw [htext]
        exact mem_pieces_text.2 (Or.inl ⟨q, List.mem_cons_self, Or.inr (List.mem_of_getLast? hends)⟩)
      obtain ⟨mark, hdoc, -⟩ := exists_mark doc
      have hmem : '>' ∈ doc := by
        rw [hdoc]
        exact List.mem_append_right mark hmark
      rw [List.all_eq_false]
      exact ⟨'>', hmem, by decide⟩

/-- The parser takes every document that the reader takes, for the same tree. -/
def Parses (lib : Libraries D) (reader : Reader) : Prop :=
  ∀ doc root, readWith reader doc = some root → lib.parse doc = some root

theorem loadConfig_of_read {lib : Libraries D} {reader : Reader} (hparse : Parses lib reader)
    {doc : Text} {root : Element} (h : readWith reader doc = some root) :
    loadConfig lib doc = .ok root := by
  rw [loadConfig, not_blank_of_read h, hparse doc root h]
  rfl

/-! ## How a run ends -/

/-- How a run ends, and what it has written. -/
inductive Ending (D : Type) where
  | failed (e : PgeError)
  /-- A failure that leaves a dataset behind. -/
  | orphan (e : PgeError) (basename : Text) (d : D)
  | complete (basename : Text) (d : D) (metadata : Metadata)

/-- The result of a run that ends so. -/
def Ending.result (files : Files D) : Ending D → EStateM.Result PgeError (Files D) PUnit
  | .failed e => .error e files
  | .orphan e b d => .error e (withDataset files (ncPath b) d)
  | .complete b d m => .ok ⟨⟩ (completeFiles files b d m)

/-- The text that a call gives to a scalar, or the one it has. -/
def pointAt (calls : List (Text × Text)) (name text : Text) : Text := (calls.lookup name).getD text

/-- The same ending, with the staged paths in the groups of the dataset. -/
inductive Repoints (lib : Libraries D) (calls : List (Text × Text)) : Ending D → Ending D → Prop
  | failed (e : PgeError) : Repoints lib calls (.failed e) (.failed e)
  | orphan (e : PgeError) (basename : Text) {d d' : D} : SameButTexts lib (pointAt calls) d d' →
      Repoints lib calls (.orphan e basename d) (.orphan e basename d')
  | complete (basename : Text) (metadata : Metadata) {d d' : D} :
      SameButTexts lib (pointAt calls) d d' →
        Repoints lib calls (.complete basename d metadata) (.complete basename d' metadata)

/-- A run on this config ends so, whatever files are there. -/
def Ends (lib : Libraries D) (configContents : Text) (p : DateTime) (r : Text) (ending : Ending D) :
    Prop :=
  ∀ files, (main lib configContents p r).run files = ending.result files

section Ends

variable {lib : Libraries D} {doc : Text} {root : Element} {p : DateTime} {r : Text}

theorem ends_unnamed (hload : loadConfig lib doc = .ok root) {e : PgeError}
    (hbase : buildOutputBasename root p = .error e) : Ends lib doc p r (.failed e) := by
  intro files
  exact run_main_early (by rw [except_bind_eq hload, hbase])

variable {b : Text} {start : DateTime} {g : Text}

theorem ends_noVersion (hload : loadConfig lib doc = .ok root)
    (hbase : buildOutputBasename root p = .ok b) (hnames : Names root start g) {e : PgeError}
    (hv : requireScalar root primaryExecutable "Version".toList = .error e) :
    Ends lib doc p r (.failed e) := by
  intro files
  exact run_main_noVersion r files hload hnames hbase hv

variable {s v : Text} {aux input : Dict}

theorem ends_notOpened (hload : loadConfig lib doc = .ok root)
    (hbase : buildOutputBasename root p = .ok b) (hreads : Reads root s g v aux input)
    (hcreate : lib.create (ncPath b) = none) : Ends lib doc p r (.failed (.notOpened (ncPath b))) := by
  intro files
  exact run_main_notOpened r files hload hbase hreads hcreate

variable (lib root b p) in
/-- The metadata of a run, if they can be built and written. -/
def writtenMetadata : Except PgeError Metadata := do
  let m ← buildCasMetadata root b p
  if lib.writes (casPath b) then return m else throw (.notWritten (casPath b))

/-- The ending of a run whose block has ended, by what becomes of its metadata. -/
def endingOf (basename : Text) (metadata : Except PgeError Metadata) :
    EStateM.Result PgeError D PUnit → Ending D
  | .error e d => .orphan e basename d
  | .ok _ d =>
      match metadata with
      | .error e => .orphan e basename d
      | .ok m => .complete basename d m

/-- With the product opened, the run ends as its block and its metadata do. -/
theorem ends_opened {d : D} (hload : loadConfig lib doc = .ok root)
    (hbase : buildOutputBasename root p = .ok b) (hreads : Reads root s g v aux input)
    (hcreate : lib.create (ncPath b) = some d) :
    Ends lib doc p r (endingOf b (writtenMetadata lib root p b)
      ((fillDataset lib g s v r aux input).run d)) := by
  intro files
  cases hfill : (fillDataset lib g s v r aux input).run d with
  | error e d' => exact run_main_unfilled r files hload hbase hreads hcreate hfill
  | ok _ d' =>
      rw [run_main_filled r files hload hbase hreads hcreate hfill, writtenMetadata]
      cases hm : buildCasMetadata root b p with
      | error e => rw [writeCasFile, run_ofExcept_error hm]; rfl
      | ok m =>
          by_cases hwrites : lib.writes (casPath b) = true
          · rw [run_writeCasFile_ok _ hm hwrites, except_bind_eq rfl, if_pos hwrites]
            rfl
          · rw [writeCasFile, run_ofExcept_ok hm, except_bind_eq rfl, if_neg hwrites]
            exact if_neg hwrites

end Ends

/-! ## Runs on an edited config -/

section Repointed

variable {lib : Libraries D} {calls : List (Text × Text)} {doc edited : Text} {root root' : Element}
  {p : DateTime} {r : Text}

/-- Blocks that end alike make runs that end alike. -/
theorem repoints_endingOf (b : Text) (metadata : Except PgeError Metadata)
    {result result' : EStateM.Result PgeError D PUnit}
    (h : SameEnd lib (pointAt calls) result result') :
    Repoints lib calls (endingOf b metadata result) (endingOf b metadata result') := by
  cases h with
  | error e hsame => exact Repoints.orphan e b hsame
  | ok hsame =>
      cases metadata with
      | error e => exact Repoints.orphan e b hsame
      | ok m => exact Repoints.complete b m hsame

/-- The scalars that name the granule are not among those the launcher edits. -/
theorem requireScalar_edited (hnames : (calls.map Prod.fst).Sublist scalarNames)
    (hreads : ReadsBack calls root root') {scalarName : Text} (hother : scalarName ∉ scalarNames)
    (groupName : Text) :
    requireScalar root' groupName scalarName = requireScalar root groupName scalarName := by
  unfold requireScalar
  rw [hreads.others groupName scalarName fun hmem => hother (hnames.subset hmem)]

theorem buildOutputBasename_edited (hnames : (calls.map Prod.fst).Sublist scalarNames)
    (hreads : ReadsBack calls root root') :
    buildOutputBasename root' p = buildOutputBasename root p := by
  unfold buildOutputBasename
  rw [requireScalar_edited hnames hreads (by decide), requireScalar_edited hnames hreads (by decide)]

theorem buildCasMetadata_edited (hnames : (calls.map Prod.fst).Sublist scalarNames)
    (hreads : ReadsBack calls root root') (b : Text) :
    buildCasMetadata root' b p = buildCasMetadata root b p := by
  unfold buildCasMetadata
  rw [requireScalar_edited hnames hreads (by decide), requireScalar_edited hnames hreads (by decide),
    requireScalar_edited hnames hreads (by decide)]

theorem getGroupScalars_edited (hreads : ReadsBack calls root root') {groupName : Text} {d : Dict}
    (h : getGroupScalars root groupName false = .ok d) :
    getGroupScalars root' groupName false = .ok (repoint calls d) := by
  rw [hreads.groups groupName false, h]
  rfl

/-- What is read of the edited config for the product. -/
theorem Reads.onEdited {s g v : Text} {aux input : Dict} (h : Reads root s g v aux input)
    (hnames : (calls.map Prod.fst).Sublist scalarNames) (hreads : ReadsBack calls root root') :
    Reads root' s g v (repoint calls aux) (repoint calls input) := by
  have hscalar : ∀ {scalarName groupName x}, scalarName ∉ scalarNames →
      getScalar root groupName scalarName = .ok x → getScalar root' groupName scalarName = .ok x := by
    intro scalarName groupName x hother hx
    rw [← requireScalar_ok_iff] at hx ⊢
    rw [requireScalar_edited hnames hreads hother, hx]
  exact ⟨hscalar (by decide) h.time, hscalar (by decide) h.number, hscalar (by decide) h.version,
    getGroupScalars_edited hreads h.aux, getGroupScalars_edited hreads h.input⟩

/-- **A run on the edited config ends as one on the original**: with the same error or the same
products, but for the staged paths in the groups of the dataset. -/
theorem main_repointed (hlib : lib.Lawful) (hnames : (calls.map Prod.fst).Sublist scalarNames)
    (hload : loadConfig lib doc = .ok root) (hload' : loadConfig lib edited = .ok root')
    (hreads : ReadsBack calls root root') (helsewhere : NoneElsewhere lib root) :
    ∃ ending ending', Ends lib doc p r ending ∧ Ends lib edited p r ending' ∧
      Repoints lib calls ending ending' := by
  have hbase' : buildOutputBasename root' p = buildOutputBasename root p :=
    buildOutputBasename_edited hnames hreads
  cases hbase : buildOutputBasename root p with
  | error e =>
      exact ⟨.failed e, .failed e, ends_unnamed hload hbase,
        ends_unnamed hload' (hbase'.trans hbase), Repoints.failed e⟩
  | ok b =>
      have hbase' := hbase'.trans hbase
      obtain ⟨start, g, hgranule, -⟩ := buildOutputBasename_ok_iff.1 hbase
      obtain ⟨start', g', hgranule', -⟩ := buildOutputBasename_ok_iff.1 hbase'
      have hversion : requireScalar root' primaryExecutable "Version".toList
          = requireScalar root primaryExecutable "Version".toList :=
        requireScalar_edited hnames hreads (by decide) _
      cases hv : requireScalar root primaryExecutable "Version".toList with
      | error e =>
          exact ⟨.failed e, .failed e, ends_noVersion hload hbase hgranule hv,
            ends_noVersion hload' hbase' hgranule' (hversion.trans hv), Repoints.failed e⟩
      | ok v =>
          obtain ⟨s, aux, input, hread⟩ := exists_reads hgranule (requireScalar_ok_iff.1 hv)
          have hread' := Reads.onEdited hread hnames hreads
          cases hcreate : lib.create (ncPath b) with
          | none =>
              exact ⟨_, _, ends_notOpened hload hbase hread hcreate,
                ends_notOpened hload' hbase' hread' hcreate, Repoints.failed _⟩
          | some d =>
              have hmetadata : writtenMetadata lib root' p b = writtenMetadata lib root p b := by
                rw [writtenMetadata, buildCasMetadata_edited hnames hreads]
                rfl
              have hsame : SameEnd lib (pointAt calls) ((fillDataset lib g s v r aux input).run d)
                  ((fillDataset lib g s v r (retextDict (pointAt calls) aux)
                    (retextDict (pointAt calls) input)).run d) :=
                fillDataset_same hlib (blankness_of_create hlib hcreate)
                  (helsewhere _ aux_mem aux hread.aux) (helsewhere _ input_mem input hread.input)
              have hends' := ends_opened (p := p) (r := r) hload' hbase' hread' hcreate
              rw [hmetadata] at hends'
              exact ⟨_, _, ends_opened hload hbase hread hcreate, hends', repoints_endingOf b _ hsame⟩

end Repointed

/-! ## The launcher and the PGE -/

/-- A config and paths that the launcher can stage and the PGE can read back: the config is read and is in
the editor's form, and the resolved paths are one line each, plain where the config has their tag, and mean
themselves in its encoding. -/
structure Stageable (reader : Reader) (m : Machine) (given : Inputs) (contents : Text) (root : Element)
    (calls : List (Text × Text)) : Prop where
  reads : readWith reader contents = some root
  resolved : Resolved m.host m.order given calls
  form : ∀ c ∈ calls, InEditorForm reader c.1 contents
  paths : ∀ c ∈ calls, HasTag reader c.1 contents → PlainPath c.2 ∧ Encodes reader contents c.2
  lines : ∀ c ∈ calls, '\n' ∉ c.2

/-- Edits to one-line values are always made. -/
theorem editAll_succeeds {calls : List (Text × Text)} (hplain : ∀ c ∈ calls, PlainName c.1)
    (hline : ∀ c ∈ calls, '\n' ∉ c.2) (config : Text) : ∃ edited, editAll calls config = .ok edited := by
  induction calls generalizing config with
  | nil => exact ⟨config, rfl⟩
  | cons c calls ih =>
      have hset := setConfigScalar_eq (hplain c List.mem_cons_self) (hline c List.mem_cons_self) config
      obtain ⟨edited, hrest⟩ := ih (fun c hc => hplain c (List.mem_cons_of_mem _ hc))
        (fun c hc => hline c (List.mem_cons_of_mem _ hc)) (mapLines (editLine c.1 c.2) config)
      exact ⟨edited, (except_bind_eq hset).trans hrest⟩

section Stageable

variable {reader : Reader} {m : Machine} {given : Inputs} {contents : Text} {root : Element}
  {calls : List (Text × Text)}

/-- Staging edits the config, and the edited config reads back. -/
theorem Stageable.editable (h : Stageable reader m given contents root calls) :
    ∃ edited root', editAll (supplied m.host m.order given) contents = .ok edited ∧
      readWith reader edited = some root' ∧ ReadsBack calls root root' := by
  have hnames := h.resolved.names
  have hplain : ∀ c ∈ madeCalls calls, PlainName c.1 := by
    intro c hc
    obtain ⟨path, hmem, -⟩ := mem_madeCalls hc
    exact plainName_scalarNames _ (hnames.subset (List.mem_map.2 ⟨_, hmem, rfl⟩))
  have hline : ∀ c ∈ madeCalls calls, '\n' ∉ c.2 := by
    intro c hc hnewline
    obtain ⟨path, hmem, hvalue⟩ := mem_madeCalls hc
    have hsame : substituted path = path := by
      rw [substituted, dropTrailingNewlines_newline, dropTrailingNewlines_of_not_mem (h.lines _ hmem)]
    rw [hvalue, hsame] at hnewline
    exact h.lines _ hmem hnewline
  obtain ⟨edited, hedit⟩ := editAll_succeeds hplain hline contents
  obtain ⟨root', hread, hreads⟩ :=
    editAll_readsBack hnames h.reads h.form h.paths hedit
  refine ⟨edited, root', ?_, hread, hreads⟩
  rw [h.resolved.supplied]
  exact hedit

end Stageable

/-- The copy is what the PGE opens. -/
theorem resolveConfigPath_localConfig (tempDir : Text) (remote : Request → Option (Option Text))
    {tree : LocalTree} {contents : Text}
    (hfile : tree (PurePath.ofText localConfig) = some (.file (some contents))) :
    resolveConfigPath tempDir remote localConfig tree = .ok (PurePath.ofText localConfig, tree) := by
  rw [resolveConfigPath, if_neg (by decide), if_neg (by decide), if_neg (by decide), search, hfile]

/-- The call, as the arguments of the PGE. -/
def pgeArguments (call : PgeCall) : Arguments where
  configFile := call.configFile
  logFilename := call.logFilename

/-- **The launcher reaches the PGE, and the PGE makes the products of the original config** with the
staged paths in the groups of the dataset, or fails as it fails on the original. -/
theorem pipeline_products {lib : Libraries D} {reader : Reader} {m : Machine} {args : List Text}
    {environ vars : Variables} {contents : Text} {root : Element} {calls : List (Text × Text)}
    (hlib : lib.Lawful) (hparse : Parses lib reader) (hready : Ready m args environ vars contents)
    (hstage : Stageable reader m (inputs vars) contents root calls)
    (helsewhere : NoneElsewhere lib root) (p : DateTime) (r : Text) :
    ∃ call ending ending', script m args environ = .ok call ∧
      call.logFilename = vars.expand Parameter.logFilename.shellVariable ∧
      Ends lib contents p r ending ∧ Repoints lib calls ending ending' ∧
      ∀ env, Hospitable env (pgeArguments call) →
        env.tree (PurePath.ofText localConfig) = some (.file (some call.config)) →
        ∀ w, Agree World.files Failure.pge
          ((Product.Processing.main lib env (pgeArguments call) p r).run w) (ending'.result w.files) := by
  obtain ⟨edited, root', hedit, hread', hreads⟩ := hstage.editable
  obtain ⟨ending, ending', hends, hends', hrepoints⟩ := main_repointed hlib hstage.resolved.names
    (loadConfig_of_read hparse hstage.reads) (loadConfig_of_read hparse hread') hreads helsewhere
    (p := p) (r := r)
  refine ⟨⟨localConfig, vars.expand Parameter.logFilename.shellVariable, edited⟩, ending, ending',
    hready.script hedit, rfl, hends, hrepoints, ?_⟩
  intro env henv hfile w
  have hrefines : Refines World.files Failure.pge
      (Product.Processing.main lib env
        ⟨localConfig, vars.expand Parameter.logFilename.shellVariable⟩ p r) (main lib edited p r) :=
    refines_main henv (resolveConfigPath_localConfig env.tempDir env.remote hfile)
      (readText_ok_iff.2 hfile)
  rw [← hends' w.files]
  exact hrefines w

/-! ### A staged L1C file -/

/-- A config with everything a product needs and an L1C file to come. -/
def stagedConfig : Text :=
  "<input><group name=\"GranuleIdentification\">".toList ++
    ("<scalar name=\"StartDateTime\">2013-01-03T14:22:42.000000Z</scalar>".toList ++
      ("<scalar name=\"StartGranuleNumber\">144</scalar></group>".toList ++
        ("<group name=\"PrimaryExecutable\"><scalar name=\"Version\">6</scalar></group>\n".toList ++
          ("<group name=\"InputProductFiles\"><scalar name=\"AirsL1cFile\">?</scalar></group>".toList ++
            "</input>".toList))))

/-- A machine with this config as its only file. -/
def granuleMachine : Machine where
  host := plainHost
  order := ReadOrder.stored
  regularFile := fun path => if path = "in.xml".toList then some stagedConfig else none
  copies := fun _ => true

def l1cPath : Text := "/data/l1c>1.nc".toList

def granuleArguments : List Text :=
  ["--config_file".toList, "'in.xml'".toList, "--l1c_file".toList, l1cPath,
    "--log_filename".toList, "run.log".toList]

def noVariables : Variables := fun _ => none

def granuleVariables : Variables :=
  ((noVariables.assign "CONFIG_FILE".toList "in.xml".toList).assign "L1C_FILE".toList l1cPath).assign
    "LOG_FILENAME".toList "run.log".toList

theorem inputs_granuleVariables : inputs granuleVariables = onlyL1c l1cPath := by
  rfl

/-- The machine of the PGE, with the copy of the config as its only file. -/
def granuleSurroundings (config : Text) : Surroundings :=
  { quietSurroundings config with
    tree := fun path =>
      if path = PurePath.ofText localConfig then some (.file (some config)) else none }

theorem hospitable_granule (config : Text) {call : PgeCall} (h : call.logFilename = "run.log".toList) :
    Hospitable (granuleSurroundings config) (pgeArguments call) := by
  obtain ⟨configFile, logFilename, contents⟩ := call
  obtain rfl : logFilename = "run.log".toList := h
  have hquiet := hospitable_quiet config
  exact ⟨hquiet.output, hquiet.log, hquiet.apart, hquiet.shell, hquiet.execute⟩

theorem readDocument_stagedConfig : (readDocument stagedConfig).isSome = true := by
  decide +kernel

theorem parses_simple : Parses simpleLibraries plainReader := fun _ _ h => h

theorem pipeline_products_l1c : ∃ root call ending ending',
    readDocument stagedConfig = some root ∧
      script granuleMachine granuleArguments noVariables = .ok call ∧
      Ends simpleLibraries stagedConfig repeatedReading [] ending ∧
      Repoints simpleLibraries [(l1cName, l1cPath)] ending ending' ∧
      ∀ w, Agree World.files Failure.pge
        ((Product.Processing.main simpleLibraries (granuleSurroundings call.config) (pgeArguments call)
          repeatedReading []).run w) (ending'.result w.files) := by
  obtain ⟨root, hread⟩ := Option.isSome_iff_exists.1 readDocument_stagedConfig
  have hload : loadConfig simpleLibraries stagedConfig = .ok root :=
    loadConfig_of_read parses_simple hread
  have hready : Ready granuleMachine granuleArguments noVariables granuleVariables stagedConfig := by
    refine ⟨rfl, rfl, by decide, rfl, ⟨rfl, rfl⟩, ?_⟩
    rw [inputs_granuleVariables]
    intro d _ _
    rfl
  have hstage : Stageable plainReader granuleMachine (inputs granuleVariables) stagedConfig root
      [(l1cName, l1cPath)] := by
    rw [inputs_granuleVariables]
    refine ⟨hread, resolved_plainHost (by decide), ?_, ?_, ?_⟩
    · intro c hc
      rw [List.mem_singleton.1 hc]
      decide +kernel
    · intro c hc _
      rw [List.mem_singleton.1 hc]
      exact ⟨⟨rfl, ⟨by decide, by decide, by decide, by decide, by decide⟩, by decide⟩,
        by decide +kernel⟩
    · intro c hc
      rw [List.mem_singleton.1 hc]
      decide
  have helsewhere : NoneElsewhere simpleLibraries root :=
    noneElsewhere_of_plainGroup hload (by decide +kernel)
  obtain ⟨call, ending, ending', hscript, hlog, hends, hrepoints, hrun⟩ := pipeline_products lawful_simple
    parses_simple hready hstage helsewhere repeatedReading []
  exact ⟨root, call, ending, ending', hread, hscript, hends, hrepoints,
    hrun _ (hospitable_granule call.config hlog) rfl⟩

end JosfraPge.System.Pipeline
