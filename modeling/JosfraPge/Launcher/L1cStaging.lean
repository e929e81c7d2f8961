import JosfraPge.Launcher.LaunchRun

/-!
# Picking the L1C file in a staged directory

For a directory the launcher takes the first path that `find` prints, whatever the order, and goes on
even when `find` prints none: `realpath` then fails, but inside an argument, and `AirsL1cFile` is set to
the empty text.

* `l1cValue_candidate`: what a launch can write, over all orders of the walk;
* `stagesOneFile_iff`: which trees make every launch write the path of one and the same data file.
-/

namespace JosfraPge.Launcher.L1cStaging

open JosfraPge.Foundation.LineText
open JosfraPge.Foundation.SedScript
open JosfraPge.Foundation.DirectoryTree
open JosfraPge.Foundation.RunRules
open JosfraPge.Launcher.SetConfigScalar
open JosfraPge.Launcher.LaunchRun

/-! ## The property -/

/-- A directory given as `--l1c_file`. -/
structure StagedDirectory (host : Host) where
  path : Text
  entry : Entry
  provided : path ≠ []
  operand : looksLikeExpression path = false
  staged : host.entryAt path = some entry
  directory : entry.isDirectory = true

/-- A config with the scalar in the form the editor recognises. -/
def Recognised (name config : Text) : Prop :=
  ∃ l ∈ lines config, ∃ a t b,
    l = a ++ (openingTag name ++ (t ++ (closingTag ++ b))) ∧ '<' ∉ t

section Staging

variable (host : Host) (dir : StagedDirectory host)

/-- A data file of the tree, by its path. -/
def DataFile (p : Text) : Prop := FileAt isDataName dir.path dir.entry p

/-- The launch gets to the PGE, with `v` written to `AirsL1cFile`. -/
def RunsPgeWith (order : ReadOrder) (inputs : Inputs) (config v : Text) : Prop :=
  ∃ st, (launch host order inputs).run { localConfig := config, calls := [] } = .ok ⟨⟩ st ∧
    st.calls.lookup l1cName = some v

/-- Every launch on the directory that gets to the PGE has written the path of a data file, the same
one in every order; without a data file no launch gets there. -/
structure StagesOneFile : Prop where
  writes : ∀ order inputs config v, inputs.l1cFile = dir.path → Recognised l1cName config →
    RunsPgeWith host order inputs config v →
      v ≠ [] ∧ ∃ p, DataFile host dir p ∧ host.realpath p = some v
  same : ∀ order order' inputs config v v', inputs.l1cFile = dir.path → Recognised l1cName config →
    RunsPgeWith host order inputs config v → RunsPgeWith host order' inputs config v' → v = v'
  stops : (∀ p, ¬ DataFile host dir p) → ∀ order inputs config, inputs.l1cFile = dir.path →
    Recognised l1cName config →
      ∃ e st, (launch host order inputs).run { localConfig := config, calls := [] } = .error e st

/-- There is a data file that the first line of every data file's path resolves to, those apart
that resolve to a path of several lines. -/
def OneChoice : Prop :=
  ∃ p v, DataFile host dir p ∧ host.realpath p = some v ∧
    ∀ q, DataFile host dir q →
      '\n' ∈ realpathText host (firstLine q) ∨ realpathText host (firstLine q) = v

end Staging

/-! ## What a launch writes -/

/-- `$(…)` leaves no newline at the end. -/
theorem dropTrailingNewlines_realpathText (host : Host) (path : Text) :
    dropTrailingNewlines (realpathText host path) = realpathText host path :=
  List.rdropWhile_idempotent _ _

theorem Recognised.present {name config : Text} (h : Recognised name config) :
    ∃ l ∈ lines config, Occurs (openingTag name) l := by
  obtain ⟨l, hl, a, t, b, hshape, _⟩ := h
  exact ⟨l, hl, a, t ++ (closingTag ++ b), by rw [hshape, List.append_assoc]⟩

section Staging

variable {host : Host} {dir : StagedDirectory host} {order : ReadOrder} {inputs : Inputs}

theorem l1cValue_dir :
    l1cValue host order dir.path = realpathText host (dropTrailingNewlines (headOne (printPaths
      (find order isDataName dir.path dir.entry)))) := by
  have hdir : isDirectory host dir.path = true := by
    rw [isDirectory, dir.staged]
    exact dir.directory
  rw [l1cValue, l1cArgument, if_pos hdir, actualL1c, dir.staged]
  rfl

/-- The file found first is the one whose path is resolved. -/
theorem l1cValue_first {q : Text} (h : (find order isDataName dir.path dir.entry).head? = some q) :
    l1cValue host order dir.path = realpathText host (firstLine q) := by
  obtain ⟨rest, hrest⟩ := List.head?_eq_some_iff.mp h
  rw [l1cValue_dir, hrest, headOne_printPaths]

/-- Without a data file the written value is empty. -/
theorem l1cValue_none (hempty : host.realpath [] = none) (hnone : ∀ p, ¬ DataFile host dir p) :
    l1cValue host order dir.path = [] := by
  rw [l1cValue_dir, find_eq_nil hnone]
  show realpathText host [] = []
  rw [realpathText, hempty]
  rfl

/-- **What a launch can write**: the path that the first line of some data file's path resolves to, or
the empty text when there is no data file. -/
theorem l1cValue_candidate (hempty : host.realpath [] = none) (order : ReadOrder) :
    (∃ q, DataFile host dir q ∧ l1cValue host order dir.path = realpathText host (firstLine q)) ∨
      ((∀ p, ¬ DataFile host dir p) ∧ l1cValue host order dir.path = []) := by
  cases hfind : find order isDataName dir.path dir.entry with
  | nil =>
      have hnone : ∀ p, ¬ DataFile host dir p := by
        intro p hp
        have hmem := (mem_find order).mpr hp
        rw [hfind] at hmem
        exact List.not_mem_nil hmem
      exact Or.inr ⟨hnone, l1cValue_none hempty hnone⟩
  | cons q rest =>
      have hq : q ∈ find order isDataName dir.path dir.entry := by
        rw [hfind]
        exact List.mem_cons_self
      exact Or.inl ⟨q, (mem_find order).mp hq, l1cValue_first (by rw [hfind]; rfl)⟩

/-- The value written in a launch on the directory. -/
theorem RunsPgeWith.value {config v : Text} (hinput : inputs.l1cFile = dir.path)
    (h : RunsPgeWith host order inputs config v) : v = l1cValue host order dir.path := by
  obtain ⟨st, hrun, hv⟩ := h
  obtain ⟨-, -, hcalls⟩ := (launch_exactly host order inputs _ _).1 hrun
  have hprovided : inputs.l1cFile ≠ [] := by
    rw [hinput]
    exact dir.provided
  rw [hcalls, supplied, arguments, callFor, if_neg hprovided, hinput] at hv
  have hfirst : l1cValue host order dir.path = v := by
    simpa [l1cValue] using hv
  exact hfirst.symm

/-- A value of several lines stops the launch. -/
theorem launch_stops {config : Text} (hinput : inputs.l1cFile = dir.path)
    (hconfig : Recognised l1cName config) (hvalue : '\n' ∈ l1cValue host order dir.path) :
    (launch host order inputs).run { localConfig := config, calls := [] }
      = .error (.sedFailed .unterminated) { localConfig := config, calls := [] } := by
  have hlast : dropTrailingNewlines (l1cValue host order dir.path)
      = l1cValue host order dir.path := by
    rw [l1cValue_dir]
    exact dropTrailingNewlines_realpathText host _
  have hprovided : inputs.l1cFile ≠ [] := by
    rw [hinput]
    exact dir.provided
  have hset := setConfigScalar_newline plainName_l1cName hvalue hlast hconfig.present
  apply run_bind_error
  rw [whenProvided, if_neg hprovided, hinput]
  exact run_setScalar_error hset

variable (dir) in
/-- Any other value gets to the PGE, where the inputs have a directory. -/
theorem launch_goes_on (hinputs : host.HasInputs) (order : ReadOrder) (config : Text)
    (hvalue : '\n' ∉ l1cValue host order dir.path) :
    RunsPgeWith host order (onlyL1c dir.path) config (l1cValue host order dir.path) := by
  refine ⟨_, launch_onlyL1c dir.provided hinputs hvalue config, ?_⟩
  rw [List.lookup_cons]
  simp

/-! ## Which trees are staged well -/

/-- A config that holds the scalar and nothing else. -/
def bareConfig : Text := "<scalar name=\"AirsL1cFile\"></scalar>".toList

theorem recognised_bareConfig : Recognised l1cName bareConfig :=
  ⟨bareConfig, by decide, [], [], [], by decide, List.not_mem_nil⟩

/-- A choice that all data files agree on is what every launch writes. -/
theorem RunsPgeWith.value_eq {config v w p : Text} (hrun : RunsPgeWith host order inputs config v)
    (hempty : host.realpath [] = none) (hp : DataFile host dir p)
    (hagree : ∀ q, DataFile host dir q →
      '\n' ∈ realpathText host (firstLine q) ∨ realpathText host (firstLine q) = w)
    (hinput : inputs.l1cFile = dir.path) (hconfig : Recognised l1cName config) : v = w := by
  have hv : v = l1cValue host order dir.path := hrun.value hinput
  rcases l1cValue_candidate hempty order with ⟨q, hq, hvalue⟩ | ⟨hnone, _⟩
  · rcases hagree q hq with hnewline | heq
    · -- `sed` refuses the value, so this launch has not got to the PGE
      rw [← hvalue] at hnewline
      obtain ⟨st, hst, _⟩ := hrun
      rw [launch_stops hinput hconfig hnewline] at hst
      exact absurd hst (by simp)
    · rw [hv, hvalue, heq]
  · exact absurd hp (hnone p)

/-- Each data file can be the one that is written. -/
theorem runsPgeWith_choice (hinputs : host.HasInputs) {q : Text} (hq : DataFile host dir q)
    (hline : '\n' ∉ realpathText host (firstLine q)) :
    RunsPgeWith host (preferring q) (onlyL1c dir.path) bareConfig (realpathText host (firstLine q)) := by
  have hvalue : l1cValue host (preferring q) dir.path = realpathText host (firstLine q) :=
    l1cValue_first (find_preferring hq)
  rw [← hvalue] at hline ⊢
  exact launch_goes_on dir hinputs (preferring q) bareConfig hline

end Staging

/-- A launch that gets to the PGE has had a directory for its inputs. -/
theorem RunsPgeWith.hasInputs {host : Host} {order : ReadOrder} {inputs : Inputs} {config v : Text}
    (h : RunsPgeWith host order inputs config v) : host.HasInputs := by
  obtain ⟨st, hrun, -⟩ := h
  exact ((launch_exactly host order inputs _ _).1 hrun).1.1

/-- Without that directory every launch ends with an error. -/
theorem launch_noInputs {host : Host} (h : ¬ host.HasInputs) (order : ReadOrder) (inputs : Inputs)
    (config : Text) :
    ∃ e st, (launch host order inputs).run { localConfig := config, calls := [] } = .error e st := by
  cases hrun : (launch host order inputs).run { localConfig := config, calls := [] } with
  | error e st => exact ⟨e, st, rfl⟩
  | ok _ st => exact absurd ((launch_exactly host order inputs _ _).1 hrun).1.1 h

/-- **A tree is staged well exactly when it leaves one choice**, wherever the inputs have a directory. -/
theorem stagesOneFile_iff (host : Host) (dir : StagedDirectory host)
    (hempty : host.realpath [] = none)
    (hresolves : ∀ p, DataFile host dir p → ∃ v, host.realpath p = some v ∧ v ≠ []) :
    StagesOneFile host dir ↔ (host.HasInputs → OneChoice host dir) := by
  constructor
  · intro h hinputs
    -- a tree without data files gets to the PGE with an empty value
    obtain ⟨q₀, hq₀⟩ : ∃ q, DataFile host dir q := by
      by_contra hnone
      have hnone' : ∀ p, ¬ DataFile host dir p := fun p hp => hnone ⟨p, hp⟩
      have hvalue : l1cValue host ReadOrder.stored dir.path = [] := l1cValue_none hempty hnone'
      have hrun := launch_goes_on dir hinputs ReadOrder.stored bareConfig
        (by rw [hvalue]; exact List.not_mem_nil)
      exact (h.writes _ _ _ _ rfl recognised_bareConfig hrun).1 hvalue
    by_cases hall : ∀ q, DataFile host dir q → '\n' ∈ realpathText host (firstLine q)
    · obtain ⟨v, hv, _⟩ := hresolves q₀ hq₀
      exact ⟨q₀, v, hq₀, hv, fun q hq => Or.inl (hall q hq)⟩
    · push Not at hall
      obtain ⟨q, hq, hline⟩ := hall
      have hrun := runsPgeWith_choice hinputs hq hline
      obtain ⟨_, p, hp, hv⟩ := h.writes _ _ _ _ rfl recognised_bareConfig hrun
      refine ⟨p, _, hp, hv, ?_⟩
      intro q' hq'
      by_cases hline' : '\n' ∈ realpathText host (firstLine q')
      · exact Or.inl hline'
      · have hrun' := runsPgeWith_choice hinputs hq' hline'
        exact Or.inr (h.same _ _ _ _ _ _ rfl recognised_bareConfig hrun' hrun)
  · intro h
    refine ⟨?_, ?_, ?_⟩
    · intro order inputs config v hinput hconfig hrun
      obtain ⟨p, w, hp, hw, hagree⟩ := h hrun.hasInputs
      have hv : v = w := hrun.value_eq hempty hp hagree hinput hconfig
      obtain ⟨u, hu, hne⟩ := hresolves p hp
      have huw : u = w := Option.some.inj (hu.symm.trans hw)
      rw [hv]
      exact ⟨huw ▸ hne, p, hp, hw⟩
    · intro order order' inputs config v v' hinput hconfig hrun hrun'
      obtain ⟨p, w, hp, hw, hagree⟩ := h hrun.hasInputs
      rw [hrun.value_eq hempty hp hagree hinput hconfig,
        hrun'.value_eq hempty hp hagree hinput hconfig]
    · intro hnone order inputs config _ _
      by_cases hinputs : host.HasInputs
      · obtain ⟨p, _, hp, -⟩ := h hinputs
        exact absurd hp (hnone p)
      · exact launch_noInputs hinputs order inputs config

/-- Where no name holds a newline and different files resolve to different paths, one choice is one
data file. -/
theorem oneChoice_iff_existsUnique {host : Host} {dir : StagedDirectory host}
    (hresolves : ∀ p, DataFile host dir p → ∃ v, host.realpath p = some v ∧ '\n' ∉ v)
    (hinj : ∀ p q, DataFile host dir p → DataFile host dir q →
      host.realpath p = host.realpath q → p = q)
    (hline : ∀ p, DataFile host dir p → '\n' ∉ p) :
    OneChoice host dir ↔ ∃! p, DataFile host dir p := by
  have htext : ∀ q, DataFile host dir q →
      '\n' ∉ realpathText host (firstLine q) ∧
        host.realpath q = some (realpathText host (firstLine q)) := by
    intro q hq
    obtain ⟨v, hv, hvline⟩ := hresolves q hq
    have hvalue : realpathText host (firstLine q) = v := by
      rw [firstLine_of_newline_not_mem (hline q hq), realpathText, hv]
      show dropTrailingNewlines (v ++ ['\n']) = v
      rw [dropTrailingNewlines_newline, dropTrailingNewlines_of_not_mem hvline]
    rw [hvalue]
    exact ⟨hvline, hv⟩
  constructor
  · intro h
    obtain ⟨p, v, hp, hv, hagree⟩ := h
    refine ⟨p, hp, ?_⟩
    intro q hq
    obtain ⟨hqline, hqv⟩ := htext q hq
    apply hinj q p hq hp
    rw [hqv, hv, (hagree q hq).resolve_left hqline]
  · intro h
    obtain ⟨p, hp, hunique⟩ := h
    refine ⟨p, _, hp, (htext p hp).2, ?_⟩
    intro q hq
    rw [hunique q hq]
    exact Or.inr rfl

/-! ### Two trees -/

/-- A host with `entry` at `/in`, where no path holds a link. -/
def stageHost (entry : Entry) : Host where
  entryAt := fun path => if path = "/in".toList then some entry else none
  realpath := fun path => if path = [] then none else some path
  s3Copy := fun _ _ => true
  makesInputs := true
  listsInputs := true

/-- A directory at `/in`. -/
def stageDirectory (entries : List Entry) :
    StagedDirectory (stageHost (.directory "in".toList entries)) where
  path := "/in".toList
  entry := .directory "in".toList entries
  provided := by decide
  operand := by decide
  staged := rfl
  directory := rfl

/-- One data file in a subdirectory, beside a link to it. -/
def granuleTree : List Entry :=
  [.directory "granule".toList [.file "l1c.hdf".toList .regular],
    .file "latest.hdf".toList (.symlink false)]

theorem stagesOneFile_iff_granule :
    StagesOneFile (stageHost (.directory "in".toList granuleTree)) (stageDirectory granuleTree) ↔
      ((stageHost (.directory "in".toList granuleTree)).HasInputs →
        OneChoice (stageHost (.directory "in".toList granuleTree)) (stageDirectory granuleTree)) := by
  apply stagesOneFile_iff
  · decide
  · intro p hp
    have hfind : find ReadOrder.stored isDataName "/in".toList (.directory "in".toList granuleTree)
        = ["/in/granule/l1c.hdf".toList] := by
      decide
    have hmem := (mem_find ReadOrder.stored).mpr hp
    rw [show (stageDirectory granuleTree).path = "/in".toList from rfl,
      show (stageDirectory granuleTree).entry = .directory "in".toList granuleTree from rfl, hfind,
      List.mem_singleton] at hmem
    rw [hmem]
    exact ⟨"/in/granule/l1c.hdf".toList, by decide, by decide⟩

/-- An empty directory does not stop the launcher. -/
theorem stagesOneFile_fails_emptyTree :
    ¬ ∀ (host : Host) (dir : StagedDirectory host), host.realpath [] = none →
      (∀ p, DataFile host dir p → ∃ v, host.realpath p = some v ∧ v ≠ []) →
        StagesOneFile host dir := by
  intro h
  have hnone : ∀ p, ¬ DataFile _ (stageDirectory []) p := by
    intro p hp
    have hmem := (mem_find ReadOrder.stored).mpr hp
    exact List.not_mem_nil hmem
  have hstages := h _ (stageDirectory []) rfl (fun p hp => absurd hp (hnone p))
  have hvalue : l1cValue _ ReadOrder.stored (stageDirectory []).path = [] := l1cValue_none rfl hnone
  have hrun := launch_goes_on (stageDirectory []) ⟨rfl, rfl⟩ ReadOrder.stored bareConfig
    (by rw [hvalue]; exact List.not_mem_nil)
  exact (hstages.writes _ _ _ _ rfl recognised_bareConfig hrun).1 hvalue

end JosfraPge.Launcher.L1cStaging
