import JosfraPge.Foundation.Refinement
import JosfraPge.Product.NamingConvention
import JosfraPge.Remote.ConfigSource

/-!
# The whole of `main`, with its log

Around the products `main` finds and prints the config, opens the processing log, logs directory
listings and the results of the bundled executables, and reports each product once it is written.  The
log is a file of its own, no product, and the list of its records, which are written without failing once
it is open.

* `logNotOpened_of_empty`: an empty name of a log is the output directory, which cannot be opened;
* `main_refines`: what the whole run does to the files is what the product core does.
-/

namespace JosfraPge.Product.Processing

open JosfraPge.Foundation.LineText
open JosfraPge.Foundation.CivilCalendar
open JosfraPge.Foundation.IntLiteral
open JosfraPge.Foundation.PosixPath
open JosfraPge.Foundation.XmlTree
open JosfraPge.Foundation.RunRules
open JosfraPge.Foundation.Refinement
open JosfraPge.Config.ScalarReaders
open JosfraPge.Product.CasDocument
open JosfraPge.Product.OutputNames
open JosfraPge.Product.CasMetadata
open JosfraPge.Product.OpenDataset
open JosfraPge.Product.ProductRun
open JosfraPge.Product.Orphans
open JosfraPge.Product.NamingConvention
open JosfraPge.Remote.ConfigDownload
open JosfraPge.Remote.ConfigSource

variable {D : Type}

/-! ## Programs that are run -/

/-- What `subprocess.run(…, text=True)` yields. -/
inductive Outcome where
  | completed (returnCode : ℤ) (stdout stderr : Text)
  /-- An `OSError`: the program cannot be run at all. -/
  | notRun (reason : Text)
  /-- The output is no text, which raises a `UnicodeDecodeError`. -/
  | undecodable
deriving DecidableEq

/-- The environment variables of a process. -/
abbrev Environ := Text → Option Text

/-- `env.setdefault(name, value)` -/
def Environ.setDefault (env : Environ) (name value : Text) : Environ :=
  match env name with
  | some _ => env
  | none => Function.update env name (some value)

inductive Moment where
  | before | after
deriving DecidableEq

/-- What a run of the PGE meets. -/
structure Surroundings where
  tempDir : Text
  remote : Request → Option (Option Text)
  tree : LocalTree
  currentDirectory : Text
  /-- `EXECUTABLE_DIR` -/
  executableDir : PurePath
  absolute : executableDir.root = ['/']
  /-- `path.mkdir(exist_ok=True)` succeeds, with `parents=True` for the directory of the log. -/
  makesDirectory : PurePath → Bool
  /-- `logging.basicConfig(filename=path, …)` can open the file. -/
  opensLog : PurePath → Bool
  /-- The output directory is no file. -/
  outputDir_noLog : opensLog (PurePath.ofText outputDir) = false
  environ : Environ
  shell : Moment → Text → Outcome
  execute : List Text → Environ → Outcome

/-! ## The log -/

/-- The records of the processing log. -/
inductive Message where
  | starting (configFile : Text)
  | configContents (configPath : PurePath) (contents : Text)
  | currentDirectory (path : Text)
  | listing (command stdout : Text)
  | listingErrors (command stderr : Text)
  | failedToRun (label reason : Text)
  | returnValue (label : Text) (code : ℤ)
  | output (label stdout : Text)
  | outputErrors (label stderr : Text)
  | resolvedConfig (configPath : PurePath)
  | groupSkipped (groupName : Text)
  | wroteNetcdf (path : PurePath)
  | wroteCas (path : PurePath)
  | complete
deriving DecidableEq

inductive Level where
  | info | error
deriving DecidableEq

def Message.level : Message → Level
  | .failedToRun _ _ => .error
  | _ => .info

def Message.text : Message → Text
  | .starting configFile => "Starting JOSFRA PGE processing for config file: ".toList ++ configFile
  | .configContents configPath contents =>
      "Config file ".toList ++ (configPath.str ++ (" contents:\n".toList ++ contents))
  | .currentDirectory path => "Current directory: ".toList ++ path
  | .listing command stdout => command ++ (" output:\n".toList ++ stdout)
  | .listingErrors command stderr => command ++ (" stderr:\n".toList ++ stderr)
  | .failedToRun label reason => "Failed to run ".toList ++ (label ++ (": ".toList ++ reason))
  | .returnValue label code => label ++ (" return value: ".toList ++ (toString code).toList)
  | .output label stdout => label ++ (" stdout:\n".toList ++ stdout)
  | .outputErrors label stderr => label ++ (" stderr:\n".toList ++ stderr)
  | .resolvedConfig configPath => "Resolved config to local file: ".toList ++ configPath.str
  | .groupSkipped groupName => "Group not present in config, skipping: ".toList ++ groupName
  | .wroteNetcdf path => "Wrote NetCDF output: ".toList ++ path.str
  | .wroteCas path => "Wrote CAS output: ".toList ++ path.str
  | .complete => "JOSFRA PGE processing complete.".toList

/-- The state of a run: the products, the log's path once it is open, its records, and what has been
printed. -/
structure World (D : Type) where
  files : Files D
  logPath : Option PurePath
  messages : List Message
  console : List Text

inductive Failure where
  | source (e : SourceError)
  | undecodable
  | notRun (reason : Text)
  | directoryNotMade (path : PurePath)
  | logNotOpened (path : PurePath)
  | pge (e : PgeError)
deriving DecidableEq

abbrev PgeRun (D : Type) := EStateM Failure (World D)

def print (text : Text) : PgeRun D PUnit :=
  modify fun w => { w with console := w.console ++ [text] }

def World.record (w : World D) (m : Message) : World D := { w with messages := w.messages ++ [m] }

/-- `logging.info` or `logging.error` -/
def log (m : Message) : PgeRun D PUnit := modify fun w => w.record m

/-- `path.mkdir(exist_ok=True)` -/
def makeDirectory (env : Surroundings) (path : PurePath) : PgeRun D PUnit :=
  if env.makesDirectory path then pure ⟨⟩ else throw (.directoryNotMade path)

/-- `logging.basicConfig(filename=log_path, …)` -/
def openLog (env : Surroundings) (path : PurePath) : PgeRun D PUnit := fun w =>
  if env.opensLog path then .ok ⟨⟩ { w with logPath := some path } else .error (.logNotOpened path) w

/-- A step on the products. -/
def onFiles {α : Type} (x : Pge D α) : PgeRun D α := fun w =>
  match x.run w.files with
  | .ok a files => .ok a { w with files := files }
  | .error e files => .error (.pge e) { w with files := files }

def requirePge {α : Type} (x : Except PgeError α) : PgeRun D α := ofExcept (x.mapError .pge)

def requireSource {α : Type} (x : Except SourceError α) : PgeRun D α :=
  ofExcept (x.mapError .source)

/-! ## Listings and executables -/

/-- The output of a finished command. -/
structure Listing where
  stdout : Text
  stderr : Text

def lsWorking : Text := "ls ./*".toList

def lsInputs : Text := "ls -la /inputs/".toList

def lsOutputs : Text := "ls -la /outputs/".toList

section Tools

variable (env : Surroundings)

/-- `get_directory_listing` -/
def getDirectoryListing (moment : Moment) (command : Text) : Except Failure Listing :=
  match env.shell moment command with
  | .completed _ stdout stderr => .ok { stdout := stdout, stderr := stderr }
  | .notRun reason => .error (.notRun reason)
  | .undecodable => .error .undecodable

/-- `print_directory_listing` -/
def printDirectoryListing (result : Listing) (command : Text) : PgeRun D PUnit := do
  print (command ++ (" output:\n".toList ++ result.stdout))
  if result.stderr = [] then pure ⟨⟩ else print (command ++ (" stderr:\n".toList ++ result.stderr))

/-- The records of a listing. -/
def listingMessages (command : Text) (result : Listing) : List Message :=
  .listing command result.stdout ::
    if result.stderr = [] then [] else [.listingErrors command result.stderr]

def logAll (messages : List Message) : PgeRun D PUnit := forM messages log

/-- `log_directory_listing` -/
def logDirectoryListing (result inputsListing : Listing) : PgeRun D PUnit :=
  logAll (.currentDirectory env.currentDirectory ::
    (listingMessages lsWorking result ++ listingMessages lsInputs inputsListing))

/-- A listing once the products are written, which is printed and logged. -/
def finalListing (command : Text) : PgeRun D PUnit := do
  let result ← ofExcept (getDirectoryListing env .after command)
  printDirectoryListing result command
  logAll (listingMessages command result)

/-- A path below the directory of the PGE. -/
def bundled (name : String) : PurePath := env.executableDir.join name.toList

/-- `toolkit_environment` -/
def toolkitEnvironment : Environ :=
  ((env.environ.setDefault "PGSHOME".toList (bundled env "TOOLKIT").str).setDefault "PGSMSG".toList
      ((bundled env "TOOLKIT").join "message".toList).str).setDefault "PGS_PC_INFO_FILE".toList
    (bundled env "SNDR.PGSToolkit_ProcessControlFile.pcf").str

/-- `" ".join(command)` -/
def labelOf (command : List Text) : Text := List.intercalate [' '] command

/-- The records of an executable that was run, or could not be. -/
def executableMessages (label : Text) : Outcome → List Message
  | .completed returnCode stdout stderr =>
      .returnValue label returnCode :: .output label stdout ::
        if stderr = [] then [] else [.outputErrors label stderr]
  | .notRun reason => [.failedToRun label reason]
  | .undecodable => []

/-- `log_executable` -/
def logExecutable (executable : PurePath) (args : List Text) (environ : Environ) :
    PgeRun D (Option ℤ) := do
  let command := executable.str :: args
  let outcome := env.execute command environ
  logAll (executableMessages (labelOf command) outcome)
  match outcome with
  | .completed returnCode _ _ => return some returnCode
  | .notRun _ => return none
  | .undecodable => throw .undecodable

end Tools

/-! ## The products -/

/-- The notice that an optional group is missing. -/
def groupNotice (root : Element) (groupName : Text) : List Message :=
  if (findNamed "group".toList groupName root.children).isNone then [.groupSkipped groupName] else []

/-- `get_group_scalars(root, group_name, required=False)`, with its notice. -/
def loggedGroupScalars (root : Element) (groupName : Text) : PgeRun D Dict := do
  logAll (groupNotice root groupName)
  requirePge (optionalGroupScalars root groupName)

/-- `write_netcdf`, with its notices and the random string it draws. -/
def writeNetcdf (lib : Libraries D) (root : Element) (outputPath : PurePath) (randomString : Text) :
    PgeRun D PUnit :=
  netcdfProgram lib requirePge (loggedGroupScalars root) onFiles root outputPath randomString

/-! ## The run -/

/-- The arguments of the command line. -/
structure Arguments where
  configFile : Text
  logFilename : Text

/-- `resolve_log_path` -/
def resolveLogPath (logFilename : Text) : PurePath :=
  let path := PurePath.ofText logFilename
  if path.root = [] then (PurePath.ofText outputDir).join logFilename else path

/-- What a run knows when it opens the log. -/
structure LoadedRun where
  directoryListing : Listing
  inputsListing : Listing
  configPath : PurePath
  contents : Text
  root : Element
  basename : Text

section Main

variable (lib : Libraries D) (env : Surroundings) (args : Arguments) (productionTime : DateTime)
  (randomString : Text)

/-- `main`, up to the log. -/
def load : PgeRun D LoadedRun := do
  let directoryListing ← ofExcept (getDirectoryListing env .before lsWorking)
  printDirectoryListing directoryListing lsWorking
  let inputsListing ← ofExcept (getDirectoryListing env .before lsInputs)
  printDirectoryListing inputsListing lsInputs
  makeDirectory env (PurePath.ofText outputDir)
  let (configPath, tree) ←
    requireSource (resolveConfigPath env.tempDir env.remote args.configFile env.tree)
  let contents ← requireSource (readText configPath tree)
  print ("Config file ".toList ++ (configPath.str ++ (" contents:\n".toList ++ contents)))
  let root ← requirePge (loadConfig lib contents)
  let basename ← requirePge (buildOutputBasename root productionTime)
  return { directoryListing := directoryListing, inputsListing := inputsListing
           configPath := configPath, contents := contents, root := root, basename := basename }

/-- `main`, the log. -/
def startLog : PgeRun D PUnit := do
  makeDirectory env (resolveLogPath args.logFilename).parent
  openLog env (resolveLogPath args.logFilename)

/-- `main`, from the log to the products. -/
def report (run : LoadedRun) : PgeRun D PUnit := do
  log (.starting args.configFile)
  log (.configContents run.configPath run.contents)
  logDirectoryListing env run.directoryListing run.inputsListing
  let _ ← logExecutable env (bundled env "getBuildId") [] env.environ
  let _ ← logExecutable env (bundled env "taiToUtc") ["01".toList] (toolkitEnvironment env)
  if run.configPath ≠ PurePath.ofText args.configFile then log (.resolvedConfig run.configPath)
  else pure ⟨⟩

/-- `main`, the products. -/
def produce (run : LoadedRun) : PgeRun D PUnit := do
  writeNetcdf lib run.root (ncPath run.basename) randomString
  log (.wroteNetcdf (ncPath run.basename))
  onFiles (writeCasFile lib run.root (casPath run.basename) run.basename productionTime)
  log (.wroteCas (casPath run.basename))
  log .complete

/-- `main`, after the products. -/
def finish : PgeRun D PUnit := do
  finalListing env lsWorking
  finalListing env lsOutputs

/-- `main` -/
def main : PgeRun D PUnit := do
  let run ← load lib env args productionTime
  startLog env args
  report env args run
  produce lib productionTime randomString run
  finish env

end Main

/-! ## The products of the whole run -/

/-- The log can be opened where it is told to be. -/
def LogOpens (env : Surroundings) (args : Arguments) : Prop :=
  env.makesDirectory (resolveLogPath args.logFilename).parent = true ∧
    env.opensLog (resolveLogPath args.logFilename) = true

/-- **With an empty name of the log there is none**: the path is the output directory. -/
theorem logNotOpened_of_empty (env : Surroundings) {args : Arguments} (h : args.logFilename = []) :
    ¬ LogOpens env args := by
  intro hopens
  have hpath : resolveLogPath args.logFilename = PurePath.ofText outputDir := by
    rw [h]
    decide
  have hopen := hopens.2
  rw [hpath, env.outputDir_noLog] at hopen
  exact absurd hopen Bool.false_ne_true

/-- A name ends as those of the products do. -/
def ProductName (name : Text) : Prop := ".nc".toList <:+ name ∨ ".nc.cas".toList <:+ name

instance (name : Text) : Decidable (ProductName name) :=
  inferInstanceAs (Decidable (".nc".toList <:+ name ∨ ".nc.cas".toList <:+ name))

/-- Every listing works, all output is text, and the output directory and the log can be made, which is
no product. -/
structure Hospitable (env : Surroundings) (args : Arguments) : Prop where
  output : env.makesDirectory (PurePath.ofText outputDir) = true
  log : LogOpens env args
  apart : ¬ ProductName (resolveLogPath args.logFilename).name
  shell : ∀ moment, ∀ command ∈ [lsWorking, lsInputs, lsOutputs], ∃ code stdout stderr,
    env.shell moment command = .completed code stdout stderr
  execute : ∀ command environ, env.execute command environ ≠ .undecodable

section Silent

variable {env : Surroundings} {args : Arguments}

theorem silent_log (m : Message) : Silent World.files (log m : PgeRun D PUnit) :=
  silent_modify fun _ => rfl

theorem run_makeDirectory {path : PurePath} (h : env.makesDirectory path = true) :
    (makeDirectory env path : PgeRun D PUnit) = pure ⟨⟩ := if_pos h

theorem silent_makeDirectory {path : PurePath} (h : env.makesDirectory path = true) :
    Silent World.files (makeDirectory env path : PgeRun D PUnit) := by
  rw [run_makeDirectory h]
  exact silent_pure _

theorem run_openLog {path : PurePath} (h : env.opensLog path = true) (w : World D) :
    (openLog env path).run w = .ok ⟨⟩ { w with logPath := some path } := if_pos h

theorem run_startLog (h : LogOpens env args) (w : World D) :
    (startLog env args).run w
      = .ok ⟨⟩ { w with logPath := some (resolveLogPath args.logFilename) } := by
  rw [startLog, run_makeDirectory h.1]
  exact run_openLog h.2 w

theorem silent_startLog (h : LogOpens env args) :
    Silent World.files (startLog env args : PgeRun D PUnit) :=
  fun w => ⟨⟨⟩, _, run_startLog h w, rfl⟩

theorem silent_print (text : Text) : Silent World.files (print text : PgeRun D PUnit) :=
  silent_modify fun _ => rfl

theorem silent_logAll (messages : List Message) :
    Silent World.files (logAll messages : PgeRun D PUnit) := by
  induction messages with
  | nil => exact silent_pure _
  | cons m messages ih => exact silent_bind (silent_log m) fun _ => ih

theorem silent_printDirectoryListing (result : Listing) (command : Text) :
    Silent World.files (printDirectoryListing result command : PgeRun D PUnit) := by
  apply silent_bind (silent_print _)
  intro _
  by_cases hempty : result.stderr = []
  · rw [if_pos hempty]
    exact silent_pure _
  · rw [if_neg hempty]
    exact silent_print _

theorem silent_getDirectoryListing (h : Hospitable env args) (moment : Moment) {command : Text}
    (hcommand : command ∈ [lsWorking, lsInputs, lsOutputs]) :
    Silent World.files (ofExcept (getDirectoryListing env moment command) : PgeRun D Listing) := by
  obtain ⟨code, stdout, stderr, hshell⟩ := h.shell moment command hcommand
  have hlisting : getDirectoryListing env moment command
      = .ok { stdout := stdout, stderr := stderr } := by
    rw [getDirectoryListing, hshell]
  rw [hlisting]
  exact silent_pure _

theorem silent_logExecutable (h : Hospitable env args) (executable : PurePath) (given : List Text)
    (environ : Environ) :
    Silent World.files (logExecutable env executable given environ : PgeRun D (Option ℤ)) := by
  unfold logExecutable
  apply silent_bind (silent_logAll _)
  intro _
  have hreadable := h.execute (executable.str :: given) environ
  generalize env.execute (executable.str :: given) environ = outcome at hreadable ⊢
  cases outcome with
  | completed code stdout stderr => exact silent_pure _
  | notRun reason => exact silent_pure _
  | undecodable => exact absurd rfl hreadable

theorem silent_report (h : Hospitable env args) (run : LoadedRun) :
    Silent World.files (report env args run : PgeRun D PUnit) := by
  unfold report logDirectoryListing
  apply silent_bind (silent_log _)
  intro _
  apply silent_bind (silent_log _)
  intro _
  apply silent_bind (silent_logAll _)
  intro _
  apply silent_bind (silent_logExecutable h _ _ _)
  intro _
  apply silent_bind (silent_logExecutable h _ _ _)
  intro _
  split
  · exact silent_log _
  · exact silent_pure _

theorem silent_finalListing (h : Hospitable env args) {command : Text}
    (hcommand : command ∈ [lsWorking, lsInputs, lsOutputs]) :
    Silent World.files (finalListing env command : PgeRun D PUnit) := by
  apply silent_bind (silent_getDirectoryListing h .after hcommand)
  intro listing
  apply silent_bind (silent_printDirectoryListing listing _)
  intro _
  exact silent_logAll _

theorem silent_finish (h : Hospitable env args) :
    Silent World.files (finish env : PgeRun D PUnit) := by
  apply silent_bind (silent_finalListing h List.mem_cons_self)
  intro _
  exact silent_finalListing h (by decide)

end Silent

section Refines

variable {lib : Libraries D} {env : Surroundings} {args : Arguments} {p : DateTime} {r : Text}

theorem run_onFiles_ok {α : Type} {x : Pge D α} {a : α} {w : World D} {files : Files D}
    (h : x.run w.files = .ok a files) : (onFiles x).run w = .ok a { w with files := files } := by
  show (match x.run w.files with
    | .ok a files => EStateM.Result.ok a { w with files := files }
    | .error e files => .error (Failure.pge e) { w with files := files }) = _
  rw [h]

theorem run_onFiles_error {α : Type} {x : Pge D α} {e : PgeError} {w : World D} {files : Files D}
    (h : x.run w.files = .error e files) :
    (onFiles x).run w = .error (.pge e) { w with files := files } := by
  show (match x.run w.files with
    | .ok a files => EStateM.Result.ok a { w with files := files }
    | .error e files => .error (Failure.pge e) { w with files := files }) = _
  rw [h]

theorem refines_onFiles {α : Type} (x : Pge D α) : Refines World.files Failure.pge (onFiles x) x := by
  intro w
  cases hx : x.run w.files with
  | ok a files =>
      rw [run_onFiles_ok hx]
      exact Agree.ok a { w with files := files }
  | error e files =>
      rw [run_onFiles_error hx]
      exact Agree.error e { w with files := files }

theorem refines_loggedGroupScalars (root : Element) (groupName : Text) :
    Refines World.files Failure.pge (loggedGroupScalars root groupName : PgeRun D Dict)
      (ofExcept (optionalGroupScalars root groupName)) := by
  unfold loggedGroupScalars
  apply refines_silent_bind (silent_logAll _)
  intro _
  exact refines_ofExcept _

theorem refines_writeNetcdf (root : Element) (path : PurePath) (r : Text) :
    Refines World.files Failure.pge (writeNetcdf lib root path r)
      (ProductRun.writeNetcdf lib root path r) := by
  unfold writeNetcdf ProductRun.writeNetcdf netcdfProgram
  apply refines_bind (refines_ofExcept _)
  intro startDateTime
  apply refines_bind (refines_ofExcept _)
  intro startGranuleNumber
  apply refines_bind (refines_ofExcept _)
  intro version
  apply refines_bind (refines_loggedGroupScalars _ _)
  intro aux
  apply refines_bind (refines_loggedGroupScalars _ _)
  intro input
  exact refines_onFiles _

theorem refines_produce (run : LoadedRun) :
    Refines World.files Failure.pge (produce lib p r run) (do
      ProductRun.writeNetcdf lib run.root (ncPath run.basename) r
      writeCasFile lib run.root (casPath run.basename) run.basename p) := by
  unfold produce
  apply refines_bind (refines_writeNetcdf _ _ _)
  intro _
  apply refines_silent_bind (silent_log _)
  intro _
  apply refines_bind_silent (refines_onFiles _)
  intro _
  exact silent_bind (silent_log _) fun _ => silent_log _

theorem refines_main (h : Hospitable env args) {path : PurePath} {contents : Text} {tree : LocalTree}
    (hresolve : resolveConfigPath env.tempDir env.remote args.configFile env.tree = .ok (path, tree))
    (hread : readText path tree = .ok contents) :
    Refines World.files Failure.pge (main lib env args p r) (ProductRun.main lib contents p r) := by
  unfold main load ProductRun.main requireSource
  rw [hresolve]
  simp only [bind_assoc, pure_bind]
  apply refines_silent_bind (silent_getDirectoryListing h .before List.mem_cons_self)
  intro listing
  apply refines_silent_bind (silent_printDirectoryListing listing _)
  intro _
  apply refines_silent_bind (silent_getDirectoryListing h .before (by decide))
  intro inputs
  apply refines_silent_bind (silent_printDirectoryListing inputs _)
  intro _
  apply refines_silent_bind (silent_makeDirectory h.output)
  intro _
  show Refines World.files Failure.pge (requireSource (readText path tree) >>= _) _
  unfold requireSource
  rw [hread]
  show Refines World.files Failure.pge (pure contents >>= _) _
  rw [pure_bind]
  apply refines_silent_bind (silent_print _)
  intro _
  apply refines_bind (refines_ofExcept _)
  intro root
  apply refines_bind (refines_ofExcept _)
  intro b
  apply refines_silent_bind (silent_startLog h.log)
  intro _
  apply refines_silent_bind (silent_report h _)
  intro _
  apply refines_bind_silent (refines_produce _)
  intro _
  exact silent_finish h

/-- **What the whole run does to the files is what the product core does** with the config that is
found, whatever is listed, run, printed and logged on the way. -/
theorem main_refines (h : Hospitable env args) {path : PurePath} {contents : Text} {tree : LocalTree}
    (hfound : findConfig env.tempDir env.remote args.configFile env.tree = .ok (path, contents, tree)) :
    Refines World.files Failure.pge (main lib env args p r) (ProductRun.main lib contents p r) := by
  obtain ⟨hresolve, hfile⟩ := findConfig_ok hfound
  exact refines_main h hresolve (readText_ok_iff.2 hfile)

end Refines

/-! ### A run on a config in place -/

/-- A config at `/in`, listings that print nothing, and no executables. -/
def quietSurroundings (contents : Text) : Surroundings where
  tempDir := "/tmp".toList
  remote := fun _ => none
  tree := fun path =>
    if path = PurePath.ofText "/in/a.config.txt".toList then some (.file (some contents)) else none
  currentDirectory := "/work".toList
  executableDir := PurePath.ofText "/app".toList
  absolute := rfl
  makesDirectory := fun _ => true
  opensLog := fun path => decide (path ≠ PurePath.ofText outputDir)
  outputDir_noLog := by decide
  environ := fun _ => none
  shell := fun _ _ => .completed 0 [] []
  execute := fun _ _ => .notRun "No such file or directory".toList

def quietArguments : Arguments where
  configFile := "/in/a.config.txt".toList
  logFilename := "run.log".toList

theorem findConfig_quiet (contents : Text) :
    findConfig (quietSurroundings contents).tempDir (quietSurroundings contents).remote
        quietArguments.configFile (quietSurroundings contents).tree
      = .ok (PurePath.ofText quietArguments.configFile, contents, (quietSurroundings contents).tree) :=
  rfl

theorem hospitable_quiet (contents : Text) :
    Hospitable (quietSurroundings contents) quietArguments where
  output := rfl
  log := by
    refine ⟨rfl, ?_⟩
    show decide (resolveLogPath quietArguments.logFilename ≠ PurePath.ofText outputDir) = true
    decide
  apart := by decide
  shell := fun _ _ _ => ⟨0, [], [], rfl⟩
  execute := fun _ _ => by rintro ⟨⟩

theorem main_refines_quiet : Refines World.files Failure.pge
    (main simpleLibraries (quietSurroundings (numberedConfig " 144 ")) quietArguments repeatedReading [])
    (ProductRun.main simpleLibraries (numberedConfig " 144 ") repeatedReading []) :=
  main_refines (hospitable_quiet _) (findConfig_quiet _)

end JosfraPge.Product.Processing
