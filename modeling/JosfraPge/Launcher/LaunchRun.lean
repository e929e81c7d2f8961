import JosfraPge.Foundation.DirectoryTree
import JosfraPge.Foundation.RunRules
import JosfraPge.Launcher.SetConfigScalar

/-!
# The launcher from the staged inputs to the PGE

`josfra_spdc.sh` points the scalars of its config copy at the inputs it was given and then runs the
PGE on the copy.  Under `set -e` a failing command ends the script; a failing command substitution
in an argument does not, it only leaves the argument empty.

* `supplied`: the calls of `set_config_scalar` that the inputs ask for, in order;
* `Exactly`: what a step needs, and what it then does;
* `launch_exactly`: when a launch reaches the PGE; it has then made exactly these calls, and the copy is
  what they make of the config.
-/

namespace JosfraPge.Launcher.LaunchRun

open JosfraPge.Foundation.LineText
open JosfraPge.Foundation.SedScript
open JosfraPge.Foundation.DirectoryTree
open JosfraPge.Foundation.RunRules
open JosfraPge.Launcher.SetConfigScalar

/-! ## What the script meets -/

structure Host where
  /-- The entry at a path, a link at its end not followed. -/
  entryAt : Text → Option Entry
  /-- The path `realpath` prints; it prints none when it fails. -/
  realpath : Text → Option Text
  /-- Whether `aws s3 cp` succeeds. -/
  s3Copy : Text → Text → Bool
  /-- Whether `mkdir -p ./inputs` succeeds. -/
  makesInputs : Bool
  /-- Whether `ls -la ./inputs/` succeeds. -/
  listsInputs : Bool

/-- The arguments, empty when they are not provided. -/
structure Inputs where
  l1cFile : Text
  moccaFile : Text
  forecastFile1 : Text
  forecastFile2 : Text
  forecastFile3 : Text
  forecastFile4 : Text

inductive Abort where
  | sedFailed (e : SedError)
  | inputsNotMade
  | downloadFailed (label : Text)
  | inputsNotListed
  deriving DecidableEq

/-- The config copy, and the calls of `set_config_scalar` that `set -x` has shown so far. -/
structure LauncherState where
  localConfig : Text
  calls : List (Text × Text)

abbrev Shell := EStateM Abort LauncherState

/-! ## The script -/

def setScalar (name value : Text) : Shell PUnit := do
  let st ← get
  match setConfigScalar name value st.localConfig with
  | .ok edited => set { st with localConfig := edited, calls := st.calls ++ [(name, value)] }
  | .error e => throw (.sedFailed e)

/-- `[ -n "$input" ]` -/
def whenProvided (input : Text) (act : Shell PUnit) : Shell PUnit :=
  if input = [] then pure ⟨⟩ else act

/-- `\( -name "*.nc" -o -name "*.hdf" \)` -/
def isDataName (name : Text) : Bool := ".nc".toList.isSuffixOf name || ".hdf".toList.isSuffixOf name

/-- Whether `find` takes its first argument for an expression rather than a path. -/
def looksLikeExpression (argument : Text) : Bool :=
  match argument with
  | '-' :: _ :: _ => true
  | _ => argument == ['('] || argument == ['!']

section Script

variable (host : Host) (order : ReadOrder)

/-- `$(realpath path)` -/
def realpathText (path : Text) : Text :=
  dropTrailingNewlines (((host.realpath path).map (· ++ ['\n'])).getD [])

/-- `[ -d path ]` -/
def isDirectory (path : Text) : Bool := (host.entryAt path).any Entry.isDirectory

/-- `ACTUAL_L1C`, for a path that `find` does not take for an expression. -/
def actualL1c (l1cFile : Text) : Text :=
  dropTrailingNewlines (headOne (printPaths
    (((host.entryAt l1cFile).map (find order isDataName l1cFile)).getD [])))

def l1cName : Text := "AirsL1cFile".toList

/-- A directory is searched, a file used directly. -/
def l1cArgument (l1cFile : Text) : Text :=
  if isDirectory host l1cFile then actualL1c host order l1cFile else l1cFile

/-- What `AirsL1cFile` is pointed at. -/
def l1cValue (l1cFile : Text) : Text := realpathText host (l1cArgument host order l1cFile)

def moccaName : Text := "AirsMoccaFile".toList

/-- A command that ends the script when it fails. -/
def command (succeeds : Bool) (e : Abort) : Shell PUnit :=
  if succeeds then pure ⟨⟩ else throw e

def downloadForecast (label uri destination : Text) : Shell PUnit :=
  command (host.s3Copy uri destination) (.downloadFailed label)

def forecastPath1 : Text := "./inputs/forecast_file_1".toList
def forecastPath2 : Text := "./inputs/forecast_file_2".toList
def forecastPath3 : Text := "./inputs/forecast_file_3".toList
def forecastPath4 : Text := "./inputs/forecast_file_4".toList

/-- The script from the first edit to the PGE. -/
def launch (inputs : Inputs) : Shell PUnit := do
  whenProvided inputs.l1cFile (setScalar l1cName (l1cValue host order inputs.l1cFile))
  whenProvided inputs.moccaFile (setScalar moccaName (realpathText host inputs.moccaFile))
  command host.makesInputs .inputsNotMade
  whenProvided inputs.forecastFile1
    (downloadForecast host "forecast_file_1".toList inputs.forecastFile1 forecastPath1)
  whenProvided inputs.forecastFile2
    (downloadForecast host "forecast_file_2".toList inputs.forecastFile2 forecastPath2)
  whenProvided inputs.forecastFile3
    (downloadForecast host "forecast_file_3".toList inputs.forecastFile3 forecastPath3)
  whenProvided inputs.forecastFile4
    (downloadForecast host "forecast_file_4".toList inputs.forecastFile4 forecastPath4)
  command host.listsInputs .inputsNotListed
  whenProvided inputs.forecastFile1 (setScalar "AVN_3".toList (realpathText host forecastPath1))
  whenProvided inputs.forecastFile2 (setScalar "AVN_6".toList (realpathText host forecastPath2))
  whenProvided inputs.forecastFile3 (setScalar "AVN_9".toList (realpathText host forecastPath3))

/-! ## The calls of a launch -/

/-- What is done for an input that is provided. -/
def callFor (input : Text) (call : Text × Text) : List (Text × Text) :=
  if input = [] then [] else [call]

/-- The scalars the inputs are for, and the paths handed to `realpath`. -/
def arguments (inputs : Inputs) : List (Text × Text) :=
  callFor inputs.l1cFile (l1cName, l1cArgument host order inputs.l1cFile) ++
    (callFor inputs.moccaFile (moccaName, inputs.moccaFile) ++
      (callFor inputs.forecastFile1 ("AVN_3".toList, forecastPath1) ++
        (callFor inputs.forecastFile2 ("AVN_6".toList, forecastPath2) ++
          callFor inputs.forecastFile3 ("AVN_9".toList, forecastPath3))))

/-- The calls the inputs ask for. -/
def supplied (inputs : Inputs) : List (Text × Text) :=
  (arguments host order inputs).map fun a => (a.1, realpathText host a.2)

theorem map_callFor (input : Text) (call : Text × Text) :
    (callFor input call).map (fun a => (a.1, realpathText host a.2))
      = callFor input (call.1, realpathText host call.2) := by
  unfold callFor
  split <;> rfl

end Script

/-- The calls, one after the other, on the text of a config. -/
def editAll (calls : List (Text × Text)) (config : Text) : Except SedError Text :=
  calls.foldlM (fun config call => setConfigScalar call.1 call.2 config) config

theorem editAll_append (calls more : List (Text × Text)) (config : Text) :
    editAll (calls ++ more) config = editAll calls config >>= editAll more := by
  rw [editAll, List.foldlM_append]
  rfl

theorem run_setScalar_ok {name value edited : Text} {st : LauncherState}
    (h : setConfigScalar name value st.localConfig = .ok edited) :
    (setScalar name value).run st
      = .ok ⟨⟩ { localConfig := edited, calls := st.calls ++ [(name, value)] } := by
  show (match setConfigScalar name value st.localConfig with
    | .ok edited => set { st with localConfig := edited, calls := st.calls ++ [(name, value)] }
    | .error e => throw (.sedFailed e) : Shell PUnit).run st = _
  rw [h]
  rfl

theorem run_setScalar_error {name value : Text} {e : SedError} {st : LauncherState}
    (h : setConfigScalar name value st.localConfig = .error e) :
    (setScalar name value).run st = .error (.sedFailed e) st := by
  show (match setConfigScalar name value st.localConfig with
    | .ok edited => set { st with localConfig := edited, calls := st.calls ++ [(name, value)] }
    | .error e => throw (.sedFailed e) : Shell PUnit).run st = _
  rw [h]
  rfl

/-! ## What a step needs and does -/

/-- The step succeeds exactly when `ok` holds and the calls can be made, and then has made them. -/
def Exactly (act : Shell PUnit) (ok : Prop) (calls : List (Text × Text)) : Prop :=
  ∀ st st', act.run st = .ok ⟨⟩ st' ↔
    ok ∧ editAll calls st.localConfig = .ok st'.localConfig ∧ st'.calls = st.calls ++ calls

section Exactly

variable {act more : Shell PUnit} {ok ok' : Prop} {calls rest : List (Text × Text)}

theorem exactly_pure : Exactly (pure ⟨⟩) True [] := by
  intro st st'
  constructor
  · intro h
    injection h with _ hst
    subst hst
    exact ⟨trivial, rfl, (List.append_nil _).symm⟩
  · intro h
    obtain ⟨-, hedit, hcalls⟩ := h
    rw [List.append_nil] at hcalls
    have hconfig : st.localConfig = st'.localConfig := Except.ok.inj hedit
    obtain ⟨config, made⟩ := st
    obtain ⟨config', made'⟩ := st'
    have hconfig : config = config' := hconfig
    have hcalls : made' = made := hcalls
    rw [hconfig, hcalls]
    rfl

theorem exactly_bind (hact : Exactly act ok calls) (hmore : Exactly more ok' rest) :
    Exactly (act >>= fun _ => more) (ok ∧ ok') (calls ++ rest) := by
  intro st st'
  constructor
  · intro h
    obtain ⟨_, st₁, hfirst, hlast⟩ := run_bind_inv h
    obtain ⟨hok, hedit, hcalls⟩ := (hact st st₁).1 hfirst
    obtain ⟨hok', hedit', hcalls'⟩ := (hmore st₁ st').1 hlast
    refine ⟨⟨hok, hok'⟩, ?_, ?_⟩
    · rw [editAll_append, except_bind_eq hedit, hedit']
    · rw [hcalls', hcalls, List.append_assoc]
  · intro h
    obtain ⟨⟨hok, hok'⟩, hedit, hcalls⟩ := h
    rw [editAll_append] at hedit
    obtain ⟨config, hfirst, hlast⟩ := except_bind_ok hedit
    have hrun : act.run st = .ok ⟨⟩ { localConfig := config, calls := st.calls ++ calls } :=
      (hact st _).2 ⟨hok, hfirst, rfl⟩
    rw [run_bind_ok hrun]
    refine (hmore _ st').2 ⟨hok', hlast, ?_⟩
    rw [hcalls, List.append_assoc]

theorem exactly_quiet_bind (hact : Exactly act ok []) (hmore : Exactly more ok' rest) :
    Exactly (act >>= fun _ => more) (ok ∧ ok') rest :=
  exactly_bind hact hmore

theorem exactly_setScalar (name value : Text) : Exactly (setScalar name value) True [(name, value)] := by
  intro st st'
  have hone : editAll [(name, value)] st.localConfig = setConfigScalar name value st.localConfig := by
    rw [editAll, List.foldlM_cons]
    cases setConfigScalar name value st.localConfig <;> rfl
  rw [hone]
  cases hset : setConfigScalar name value st.localConfig with
  | error e =>
      rw [run_setScalar_error hset]
      simp
  | ok edited =>
      rw [run_setScalar_ok hset]
      constructor
      · intro h
        injection h with _ hst
        subst hst
        exact ⟨trivial, rfl, rfl⟩
      · intro h
        obtain ⟨-, hconfig, hcalls⟩ := h
        obtain ⟨config', made'⟩ := st'
        have hconfig : edited = config' := Except.ok.inj hconfig
        have hcalls : made' = st.calls ++ [(name, value)] := hcalls
        rw [hconfig, hcalls]

theorem exactly_command (succeeds : Bool) (e : Abort) :
    Exactly (command succeeds e) (succeeds = true) [] := by
  unfold command
  cases succeeds with
  | true =>
      intro st st'
      rw [if_pos rfl, exactly_pure st st']
      simp
  | false =>
      intro st st'
      constructor
      · intro h
        exact absurd h (by rintro ⟨⟩)
      · intro h
        exact absurd h.1 Bool.false_ne_true

theorem exactly_downloadForecast (host : Host) (label uri destination : Text) :
    Exactly (downloadForecast host label uri destination) (host.s3Copy uri destination = true) [] :=
  exactly_command _ _

theorem exactly_whenProvided {call : Text × Text} (h : Exactly act ok [call]) (input : Text) :
    Exactly (whenProvided input act) (input ≠ [] → ok) (callFor input call) := by
  unfold whenProvided callFor
  by_cases hinput : input = []
  · rw [if_pos hinput, if_pos hinput]
    intro st st'
    rw [exactly_pure st st']
    simp [hinput]
  · rw [if_neg hinput, if_neg hinput]
    intro st st'
    rw [h st st']
    simp [hinput]

theorem exactly_whenProvided_nil (h : Exactly act ok []) (input : Text) :
    Exactly (whenProvided input act) (input ≠ [] → ok) [] := by
  unfold whenProvided
  by_cases hinput : input = []
  · rw [if_pos hinput]
    intro st st'
    rw [exactly_pure st st']
    simp [hinput]
  · rw [if_neg hinput]
    intro st st'
    rw [h st st']
    simp [hinput]

theorem Exactly.congr (h : Exactly act ok calls) (hok : ok ↔ ok') : Exactly act ok' calls := by
  intro st st'
  rw [h st st', hok]

end Exactly

/-! ## The whole launch -/

/-- The forecasts, and where they are downloaded to. -/
def downloads (given : Inputs) : List (Text × Text) :=
  [(given.forecastFile1, forecastPath1), (given.forecastFile2, forecastPath2),
    (given.forecastFile3, forecastPath3), (given.forecastFile4, forecastPath4)]

/-- Every forecast that is provided can be downloaded. -/
def AllDownloaded (host : Host) (given : Inputs) : Prop :=
  ∀ d ∈ downloads given, d.1 ≠ [] → host.s3Copy d.1 d.2 = true

/-- The directory of the inputs can be made and listed. -/
def Host.HasInputs (host : Host) : Prop := host.makesInputs = true ∧ host.listsInputs = true

/-- **A launch gets to the PGE exactly when the directory of the inputs can be made and listed, every
provided forecast downloads and every edit can be made**, and has then made the edits in order. -/
theorem launch_exactly (host : Host) (order : ReadOrder) (given : Inputs) :
    Exactly (launch host order given) (host.HasInputs ∧ AllDownloaded host given)
      (supplied host order given) := by
  unfold supplied arguments
  simp only [List.map_append, map_callFor]
  have hdownload := exactly_downloadForecast host
  apply Exactly.congr
  · apply exactly_bind (exactly_whenProvided (exactly_setScalar _ _) _)
    apply exactly_bind (exactly_whenProvided (exactly_setScalar _ _) _)
    apply exactly_quiet_bind (exactly_command _ _)
    apply exactly_quiet_bind (exactly_whenProvided_nil (hdownload _ _ _) _)
    apply exactly_quiet_bind (exactly_whenProvided_nil (hdownload _ _ _) _)
    apply exactly_quiet_bind (exactly_whenProvided_nil (hdownload _ _ _) _)
    apply exactly_quiet_bind (exactly_whenProvided_nil (hdownload _ _ _) _)
    apply exactly_quiet_bind (exactly_command _ _)
    apply exactly_bind (exactly_whenProvided (exactly_setScalar _ _) _)
    apply exactly_bind (exactly_whenProvided (exactly_setScalar _ _) _)
    exact exactly_whenProvided (exactly_setScalar _ _) _
  · simp [AllDownloaded, downloads, Host.HasInputs]
    tauto

/-! ### A launch with one input -/

/-- Only the L1C input provided. -/
def onlyL1c (l1cFile : Text) : Inputs where
  l1cFile := l1cFile
  moccaFile := []
  forecastFile1 := []
  forecastFile2 := []
  forecastFile3 := []
  forecastFile4 := []

theorem plainName_l1cName : PlainName l1cName := by
  decide

/-- Where the inputs have a directory such a launch gets to the PGE with a value of one line. -/
theorem launch_onlyL1c {host : Host} {order : ReadOrder} {l1cFile : Text} (hprovided : l1cFile ≠ [])
    (hinputs : host.HasInputs) (hvalue : '\n' ∉ l1cValue host order l1cFile) (config : Text) :
    (launch host order (onlyL1c l1cFile)).run { localConfig := config, calls := [] }
      = .ok ⟨⟩ { localConfig := mapLines (editLine l1cName (l1cValue host order l1cFile)) config,
                 calls := [(l1cName, l1cValue host order l1cFile)] } := by
  have hset := setConfigScalar_eq plainName_l1cName hvalue config
  have hsupplied : supplied host order (onlyL1c l1cFile)
      = [(l1cName, l1cValue host order l1cFile)] := by
    rw [supplied, arguments, onlyL1c, callFor, if_neg hprovided]
    rfl
  refine (launch_exactly host order (onlyL1c l1cFile) _ _).2 ⟨⟨hinputs, ?_⟩, ?_, ?_⟩
  · intro d hd hne
    simp only [downloads, onlyL1c, List.mem_cons, List.not_mem_nil, or_false] at hd
    rcases hd with rfl | rfl | rfl | rfl <;> exact absurd rfl hne
  · rw [hsupplied, editAll, List.foldlM_cons, hset]
    rfl
  · rw [hsupplied]
    rfl

end JosfraPge.Launcher.LaunchRun
