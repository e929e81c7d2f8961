import JosfraPge.Toolkit.FileNames
import JosfraPge.Toolkit.LookupSafety

/-!
# The toolkit in the environment of the PGE

`toolkit_environment` names the process control file and `PGSHOME` for the bundled programs, unless the
environment has them.

* `finds_toolkitEnvironment`: what it makes of the two variables;
* `toolkitEnvironment_finds`: in that environment a lookup finds the entry that is meant.
-/

namespace JosfraPge.Toolkit.ToolkitEnvironment

open JosfraPge.Foundation.LineText
open JosfraPge.Product.Processing
open JosfraPge.Toolkit.ProcessControl
open JosfraPge.Toolkit.ControlAreas
open JosfraPge.Toolkit.FileNames
open JosfraPge.Toolkit.LookupSafety

/-! ## The environment -/

section Toolkit

variable (env : Surroundings)

/-- What `PGSHOME` is for the bundled programs. -/
def toolkitHome : Text := (env.environ "PGSHOME".toList).getD (bundled env "TOOLKIT").str

/-- What `PGS_PC_INFO_FILE` is for them. -/
def toolkitPcf : Text :=
  (env.environ "PGS_PC_INFO_FILE".toList).getD (bundled env "SNDR.PGSToolkit_ProcessControlFile.pcf").str

theorem setDefault_same (e : Environ) (name value : Text) :
    e.setDefault name value name = some ((e name).getD value) := by
  unfold Environ.setDefault
  cases hname : e name with
  | none => simp
  | some v => exact hname

theorem setDefault_other (e : Environ) {name other : Text} (value : Text) (h : other ≠ name) :
    e.setDefault name value other = e other := by
  unfold Environ.setDefault
  cases e name with
  | none => exact Function.update_of_ne h _ _
  | some v => rfl

theorem bundled_absolute {name : String} {c : Char} {s : Text} (hname : name.toList = c :: s)
    (hc : c ≠ '/') : (bundled env name).str.head? = some '/' := by
  have hroot : (bundled env name).root = ['/'] := by
    rw [bundled, hname, Foundation.PosixPath.join_relative _ hc]
    exact env.absolute
  unfold Foundation.PosixPath.PurePath.str
  rw [if_neg (by simp [hroot]), hroot]
  rfl

/-- The PGE's environment for the bundled programs leads to its process control file. -/
theorem finds_toolkitEnvironment {f : ControlFile} {file : Text → Option (List Text)}
    (hascii : env.environ "PGSMEM_USESHM".toList ≠ some "YES".toList)
    (habsolute : ∀ home, env.environ "PGSHOME".toList = some home → home.head? = some '/')
    (hpcf : file (toolkitPcf env) = some f.lines) :
    Finds ⟨toolkitEnvironment env, file⟩ f (toolkitHome env) where
  ascii := by
    show toolkitEnvironment env "PGSMEM_USESHM".toList ≠ _
    unfold toolkitEnvironment
    rw [setDefault_other _ _ (by decide), setDefault_other _ _ (by decide), setDefault_other _ _ (by decide)]
    exact hascii
  pgsHome := by
    show toolkitEnvironment env "PGSHOME".toList = _
    unfold toolkitEnvironment
    rw [setDefault_other _ _ (by decide), setDefault_other _ _ (by decide), setDefault_same]
    rfl
  absolute := by
    unfold toolkitHome
    cases hhome : env.environ "PGSHOME".toList with
    | none => exact bundled_absolute env rfl (by decide)
    | some home => exact habsolute home hhome
  pcf := by
    refine ⟨toolkitPcf env, ?_, hpcf⟩
    show toolkitEnvironment env "PGS_PC_INFO_FILE".toList = _
    unfold toolkitEnvironment
    rw [setDefault_same, setDefault_other _ _ (by decide), setDefault_other _ _ (by decide)]
    rfl

/-- **A bundled program opens the file that is meant**: it finds each logical identifier through the process
control file, below the directory that `PGSHOME` or the PGE gives. -/
theorem toolkitEnvironment_finds {f : ControlFile} (file : Text → Option (List Text))
    (hascii : env.environ "PGSMEM_USESHM".toList ≠ some "YES".toList)
    (habsolute : ∀ home, env.environ "PGSHOME".toList = some home → home.head? = some '/')
    (hpcf : file (toolkitPcf env) = some f.lines) (identifier version : ℕ)
    (hlen : ∀ type e, f.find identifier version fileTypes = some (type, e) →
      (fullName (toolkitHome env) (f.area type) e).length ≤ 500) :
    Host.genOpenName ⟨toolkitEnvironment env, file⟩ identifier (version + 1 : ℕ)
      = match f.find identifier version fileTypes with
        | some (type, e) => .ok (fullName (toolkitHome env) (f.area type) e)
        | none => .error .fileNoExist :=
  genOpenName_lines (finds_toolkitEnvironment env hascii habsolute hpcf) identifier version hlen

end Toolkit

/-! ### The leap second file -/

theorem plain_of_all {s : Text} (h : s.all (fun c => c ≠ '|' && c ≠ '\n') = true) : Plain s := by
  rw [List.all_eq_true] at h
  exact ⟨fun hmem => absurd (h _ hmem) (by decide), fun hmem => absurd (h _ hmem) (by decide)⟩

def leapsecEntry : Entry where
  label := "10301".toList
  name := "leapsec.dat".toList
  path := "~/database/common/TD".toList
  reserved := []
  universalReference := []
  attributes := []
  trailer := "1".toList
  label_digits := by decide
  label_length := by decide
  name_ne := by decide
  name_length := by decide
  name_plain := plain_of_all (by decide)
  path_plain := plain_of_all (by decide)
  reserved_plain := plain_of_all rfl
  universalReference_plain := plain_of_all rfl
  attributes_plain := plain_of_all rfl
  trailer_ne := by decide
  trailer_length := by decide
  trailer_plain := by decide

/-- An area whose files are in `~/runtime` unless they say otherwise. -/
def runtimeArea (body : List BodyLine) : Area where
  title := "   FILES\n".toList
  comments := []
  default := "  ~/runtime".toList
  body := body
  default_plain := by decide
  default_graph := by decide

def leapsecFile : ControlFile where
  system := ["?   SYSTEM RUNTIME PARAMETERS\n".toList, "1\n".toList, "1\n".toList]
  area
    | .supportInput => runtimeArea [.comment " Time and date\n".toList, .entry leapsecEntry]
    | _ => runtimeArea []
  rest := ["?   USER DEFINED RUNTIME PARAMETERS\n".toList]
  system_divider := by decide
  rest_divider := by decide

theorem toolkitEnvironment_finds_leapsec :
    Host.genOpenName ⟨toolkitEnvironment (quietSurroundings []), fun _ => some leapsecFile.lines⟩ 10301 1
      = .ok "/app/TOOLKIT/database/common/TD/leapsec.dat".toList := by
  have hfind : leapsecFile.find 10301 0 fileTypes = some (.supportInput, leapsecEntry) := by rfl
  have hname : fullName (toolkitHome (quietSurroundings [])) (leapsecFile.area .supportInput) leapsecEntry
      = "/app/TOOLKIT/database/common/TD/leapsec.dat".toList := by decide
  have hascii : (quietSurroundings []).environ "PGSMEM_USESHM".toList ≠ some "YES".toList :=
    Ne.symm (Option.some_ne_none _)
  have habsolute : ∀ home, (quietSurroundings []).environ "PGSHOME".toList = some home →
      home.head? = some '/' := fun home hhome => absurd hhome.symm (Option.some_ne_none home)
  have hlen : ∀ type e, leapsecFile.find 10301 0 fileTypes = some (type, e) →
      (fullName (toolkitHome (quietSurroundings [])) (leapsecFile.area type) e).length ≤ 500 := by
    intro type e h
    obtain ⟨rfl, rfl⟩ := Prod.mk.inj (Option.some.inj (h.symm.trans hfind))
    rw [hname]
    decide
  have hopens := toolkitEnvironment_finds (quietSurroundings []) (fun _ => some leapsecFile.lines)
    hascii habsolute rfl 10301 0 hlen
  rw [hfind] at hopens
  exact hopens.trans (congrArg Except.ok hname)

end JosfraPge.Toolkit.ToolkitEnvironment
