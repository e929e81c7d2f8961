import JosfraPge.Foundation.RunRules
import JosfraPge.Remote.ObjectKeys
import Mathlib.Data.Char
import Mathlib.Data.List.Lex
import Mathlib.Data.List.Sort

/-!
# Where a run finds its config

`resolve_config_path` stores a remote source in the temporary directory, searches a directory for
`*.config.txt`, and takes any other source for the config itself.  The order in which the names of a
directory are read is not fixed; the search sorts them.

* `configNames_perm`, `head_configNames_iff`: the search finds the least name, in every order;
* `findConfig_sameTree`: which config a run processes does not depend on these orders;
* `findConfig_again`: the path of a config that was found leads back to it.
-/

namespace JosfraPge.Remote.ConfigSource

open JosfraPge.Foundation.LineText
open JosfraPge.Foundation.PosixPath
open JosfraPge.Foundation.RunRules
open JosfraPge.Foundation.UrlSplit
open JosfraPge.Remote.ConfigDownload
open JosfraPge.Remote.ObjectKeys

/-! ## The local files -/

/-- What stands at a path, links followed; a file has no text when it is no UTF-8. -/
inductive Node where
  | file (contents : Option Text)
  | directory (names : List Text)
deriving DecidableEq

abbrev LocalTree := PurePath → Option Node

inductive SourceError where
  /-- `urlparse` raises a `ValueError`. -/
  | badUrl
  | downloadFailed (r : Request)
  /-- A download cannot be stored where a directory stands. -/
  | notStored (path : PurePath)
  | noConfigFile (path : PurePath)
  | unreadable (path : PurePath)
deriving DecidableEq

/-- The text of the error that the PGE itself raises. -/
def SourceError.message : SourceError → Option Text
  | .noConfigFile path => some ("No *.config.txt file found in ".toList ++ path.str)
  | _ => none

/-! ## The search -/

/-- `*.config.txt` -/
def isConfigName (name : Text) : Bool := ".config.txt".toList.isSuffixOf name

/-- `sorted(path.glob("*.config.txt"))`, as names. -/
def configNames (names : List Text) : List Text :=
  (names.filter isConfigName).insertionSort (· ≤ ·)

section Resolve

variable (tempDir : Text) (remote : Request → Option (Option Text))

/-- `download_from_url` or `download_from_s3`, with the name the answer is stored under. -/
def store (download : Request × Text) (tree : LocalTree) :
    Except SourceError (PurePath × LocalTree) :=
  let path := (PurePath.ofText tempDir).join download.2
  match remote download.1 with
  | none => .error (.downloadFailed download.1)
  | some contents =>
      if FileName download.2 then
        match tree path with
        | some (.directory _) => .error (.notStored path)
        | _ => .ok (path, Function.update tree path (some (.file contents)))
      else .error (.notStored path)

/-- The fallback for a local path. -/
def search (path : PurePath) (tree : LocalTree) : Except SourceError (PurePath × LocalTree) :=
  match tree path with
  | some (.directory names) =>
      match (configNames names).head? with
      | some name => .ok (path.join name, tree)
      | none => .error (.noConfigFile path)
  | _ => .ok (path, tree)

/-- `resolve_config_path` -/
def resolveConfigPath (source : Text) (tree : LocalTree) :
    Except SourceError (PurePath × LocalTree) :=
  if urlparse source = none then .error .badUrl
  else if isUrl source then store tempDir remote (urlDownload source) tree
  else if isS3Uri source then store tempDir remote (s3Download source) tree
  else search (PurePath.ofText source) tree

/-- `config_path.read_text(encoding="utf-8")` -/
def readText (path : PurePath) (tree : LocalTree) : Except SourceError Text :=
  match tree path with
  | some (.file (some contents)) => .ok contents
  | _ => .error (.unreadable path)

/-- The files once a config has been resolved, also when it cannot be read then. -/
def treeAfter (source : Text) (tree : LocalTree) : LocalTree :=
  match resolveConfigPath tempDir remote source tree with
  | .ok (_, resolved) => resolved
  | .error _ => tree

/-- The config of a run: its path, its contents, and the files with it in place. -/
def findConfig (source : Text) (tree : LocalTree) :
    Except SourceError (PurePath × Text × LocalTree) := do
  let (path, tree) ← resolveConfigPath tempDir remote source tree
  let contents ← readText path tree
  return (path, contents, tree)

end Resolve

/-! ## The least name -/

theorem configNames_perm {names names' : List Text} (h : names.Perm names') :
    configNames names = configNames names' := by
  have hsorted := fun l : List Text => List.pairwise_insertionSort (· ≤ ·) l
  apply List.Perm.eq_of_pairwise (fun a b _ _ hab hba => le_antisymm hab hba) (hsorted _) (hsorted _)
  have hfilter : (names.filter isConfigName).Perm (names'.filter isConfigName) := h.filter _
  exact (List.perm_insertionSort _ _).trans (hfilter.trans (List.perm_insertionSort _ _).symm)

/-- The least config name of a directory. -/
def LeastConfig (names : List Text) (name : Text) : Prop :=
  (name ∈ names ∧ isConfigName name = true) ∧
    ∀ other ∈ names, isConfigName other = true → name ≤ other

theorem mem_configNames {names : List Text} {name : Text} :
    name ∈ configNames names ↔ name ∈ names ∧ isConfigName name = true := by
  rw [configNames, List.mem_insertionSort, List.mem_filter]

/-- **The search finds the least config name.** -/
theorem head_configNames_iff {names : List Text} {name : Text} :
    (configNames names).head? = some name ↔ LeastConfig names name := by
  have hsorted : (configNames names).Pairwise (· ≤ ·) := List.pairwise_insertionSort _ _
  constructor
  · intro h
    obtain ⟨rest, hrest⟩ := List.head?_eq_some_iff.1 h
    have hmem : name ∈ configNames names := hrest ▸ List.mem_cons_self
    refine ⟨mem_configNames.1 hmem, ?_⟩
    intro other hother hconfig
    have hin : other ∈ configNames names := mem_configNames.2 ⟨hother, hconfig⟩
    rw [hrest] at hsorted hin
    rcases List.mem_cons.1 hin with rfl | hlater
    · exact le_refl _
    · exact (List.pairwise_cons.1 hsorted).1 other hlater
  · intro h
    obtain ⟨hname, hleast⟩ := h
    have hin := mem_configNames.2 hname
    cases hlist : configNames names with
    | nil => exact absurd (hlist ▸ hin) List.not_mem_nil
    | cons first rest =>
        have hfirst := mem_configNames.1 (hlist ▸ List.mem_cons_self : first ∈ configNames names)
        have hle : name ≤ first := hleast first hfirst.1 hfirst.2
        rw [hlist] at hin hsorted
        rcases List.mem_cons.1 hin with rfl | hlater
        · rfl
        · have hge : first ≤ name := (List.pairwise_cons.1 hsorted).1 name hlater
          rw [le_antisymm hle hge]
          rfl

/-! ## Directories read in another order -/

/-- Nodes that differ at most in the order of a directory's names. -/
inductive Node.Same : Node → Node → Prop
  | file (contents : Option Text) : Same (.file contents) (.file contents)
  | directory {names names' : List Text} : names.Perm names' → Same (.directory names) (.directory names')

def SameTree (tree tree' : LocalTree) : Prop := ∀ path, Option.Rel Node.Same (tree path) (tree' path)

/-- Runs that find the same config, or fail alike. -/
def SameOutcome : Except SourceError (PurePath × Text × LocalTree) →
    Except SourceError (PurePath × Text × LocalTree) → Prop
  | .ok found, .ok found' =>
      found.1 = found'.1 ∧ found.2.1 = found'.2.1 ∧ SameTree found.2.2 found'.2.2
  | .error e, .error e' => e = e'
  | _, _ => False

section SameTree

variable {tempDir : Text} {remote : Request → Option (Option Text)} {tree tree' : LocalTree}

theorem SameTree.update (h : SameTree tree tree') (path : PurePath) (contents : Option Text) :
    SameTree (Function.update tree path (some (.file contents)))
      (Function.update tree' path (some (.file contents))) := by
  intro p
  by_cases hp : p = path
  · rw [hp, Function.update_self, Function.update_self]
    exact Option.Rel.some (Node.Same.file contents)
  · rw [Function.update_of_ne hp, Function.update_of_ne hp]
    exact h p

/-- What two resolutions on such trees have in common. -/
def SameResolution : Except SourceError (PurePath × LocalTree) →
    Except SourceError (PurePath × LocalTree) → Prop
  | .ok found, .ok found' => found.1 = found'.1 ∧ SameTree found.2 found'.2
  | .error e, .error e' => e = e'
  | _, _ => False

theorem store_sameTree (h : SameTree tree tree') (download : Request × Text) :
    SameResolution (store tempDir remote download tree) (store tempDir remote download tree') := by
  unfold store
  have hpath := h ((PurePath.ofText tempDir).join download.2)
  generalize (PurePath.ofText tempDir).join download.2 = path at hpath ⊢
  cases remote download.1 with
  | none => rfl
  | some contents =>
      by_cases hname : FileName download.2
      · simp only [if_pos hname]
        generalize hnode : tree path = node at hpath ⊢
        generalize hnode' : tree' path = node' at hpath ⊢
        cases hpath with
        | none => exact ⟨rfl, h.update path contents⟩
        | some hsame =>
            cases hsame with
            | file _ => exact ⟨rfl, h.update path contents⟩
            | directory _ => rfl
      · simp only [if_neg hname]
        rfl

theorem search_sameTree (h : SameTree tree tree') (path : PurePath) :
    SameResolution (search path tree) (search path tree') := by
  unfold search
  have hpath := h path
  generalize tree path = node at hpath ⊢
  generalize tree' path = node' at hpath ⊢
  cases hpath with
  | none => exact ⟨rfl, h⟩
  | some hsame =>
      cases hsame with
      | file _ => exact ⟨rfl, h⟩
      | @directory names names' hperm =>
          simp only [configNames_perm hperm]
          cases (configNames names').head? with
          | none => rfl
          | some name => exact ⟨rfl, h⟩

theorem resolveConfigPath_sameTree (h : SameTree tree tree') (source : Text) :
    SameResolution (resolveConfigPath tempDir remote source tree)
      (resolveConfigPath tempDir remote source tree') := by
  unfold resolveConfigPath
  by_cases hparse : urlparse source = none
  · simp only [if_pos hparse]
    rfl
  · simp only [if_neg hparse]
    cases isUrl source with
    | true => exact store_sameTree h _
    | false =>
        cases isS3Uri source with
        | true => exact store_sameTree h _
        | false => exact search_sameTree h _

theorem readText_sameTree (h : SameTree tree tree') (path : PurePath) :
    readText path tree = readText path tree' := by
  unfold readText
  have hpath := h path
  generalize tree path = node at hpath ⊢
  generalize tree' path = node' at hpath ⊢
  cases hpath with
  | none => rfl
  | some hsame => cases hsame <;> rfl

theorem findConfig_outcome (h : SameTree tree tree') (source : Text) :
    SameOutcome (findConfig tempDir remote source tree) (findConfig tempDir remote source tree') := by
  have hresolve : SameResolution (resolveConfigPath tempDir remote source tree)
      (resolveConfigPath tempDir remote source tree') := resolveConfigPath_sameTree h source
  unfold findConfig
  cases hfound : resolveConfigPath tempDir remote source tree with
  | error e =>
      rw [hfound] at hresolve
      cases hfound' : resolveConfigPath tempDir remote source tree' with
      | error e' =>
          rw [hfound'] at hresolve
          exact hresolve
      | ok found' =>
          rw [hfound'] at hresolve
          exact hresolve.elim
  | ok found =>
      rw [hfound] at hresolve
      cases hfound' : resolveConfigPath tempDir remote source tree' with
      | error e' =>
          rw [hfound'] at hresolve
          exact hresolve.elim
      | ok found' =>
          rw [hfound'] at hresolve
          obtain ⟨path, tree₁⟩ := found
          obtain ⟨path', tree₁'⟩ := found'
          obtain ⟨hsame, htree⟩ := hresolve
          obtain rfl : path = path' := hsame
          have htree : SameTree tree₁ tree₁' := htree
          show SameOutcome (readText path tree₁ >>= fun contents => pure (path, contents, tree₁))
            (readText path tree₁' >>= fun contents => pure (path, contents, tree₁'))
          rw [← readText_sameTree htree path]
          cases readText path tree₁ with
          | error e => rfl
          | ok contents => exact ⟨rfl, rfl, htree⟩

/-- A run leaves the same files, also when it fails. -/
theorem treeAfter_sameTree (h : SameTree tree tree') (source : Text) :
    SameTree (treeAfter tempDir remote source tree) (treeAfter tempDir remote source tree') := by
  have hresolve : SameResolution (resolveConfigPath tempDir remote source tree)
      (resolveConfigPath tempDir remote source tree') := resolveConfigPath_sameTree h source
  unfold treeAfter
  cases hfound : resolveConfigPath tempDir remote source tree with
  | error e =>
      rw [hfound] at hresolve
      cases hfound' : resolveConfigPath tempDir remote source tree' with
      | error e' => exact h
      | ok found' =>
          rw [hfound'] at hresolve
          exact hresolve.elim
  | ok found =>
      rw [hfound] at hresolve
      cases hfound' : resolveConfigPath tempDir remote source tree' with
      | error e' =>
          rw [hfound'] at hresolve
          exact hresolve.elim
      | ok found' =>
          rw [hfound'] at hresolve
          exact hresolve.2

/-- **Which config a run processes, and which files it leaves, does not depend on the order in which
directories are read.** -/
theorem findConfig_sameTree (h : SameTree tree tree') (source : Text) :
    SameOutcome (findConfig tempDir remote source tree) (findConfig tempDir remote source tree') ∧
      SameTree (treeAfter tempDir remote source tree) (treeAfter tempDir remote source tree') :=
  ⟨findConfig_outcome h source, treeAfter_sameTree h source⟩

end SameTree

/-! ### A directory with two configs -/

/-- A directory at `/in`, whose names are read in some order. -/
def inputTree (names : List Text) : LocalTree := fun path =>
  if path = PurePath.ofText "/in".toList then some (.directory names)
  else if path = PurePath.ofText "/in/a.config.txt".toList then some (.file (some "<a/>".toList))
  else none

def inputNames : List Text := ["b.config.txt".toList, "a.config.txt".toList]

theorem findConfig_inputTree : findConfig [] (fun _ => none) "/in".toList (inputTree inputNames)
    = .ok (PurePath.ofText "/in/a.config.txt".toList, "<a/>".toList, inputTree inputNames) := rfl

theorem findConfig_sameTree_input :
    SameOutcome (findConfig [] (fun _ => none) "/in".toList (inputTree inputNames))
        (findConfig [] (fun _ => none) "/in".toList (inputTree inputNames.reverse)) ∧
      SameTree (treeAfter [] (fun _ => none) "/in".toList (inputTree inputNames))
        (treeAfter [] (fun _ => none) "/in".toList (inputTree inputNames.reverse)) := by
  apply findConfig_sameTree
  intro path
  unfold inputTree
  by_cases hdir : path = PurePath.ofText "/in".toList
  · rw [if_pos hdir, if_pos hdir]
    exact Option.Rel.some (Node.Same.directory (List.reverse_perm _).symm)
  · rw [if_neg hdir, if_neg hdir]
    by_cases hfile : path = PurePath.ofText "/in/a.config.txt".toList
    · rw [if_pos hfile]
      exact Option.Rel.some (Node.Same.file _)
    · rw [if_neg hfile]
      exact Option.Rel.none

/-! ## Finding a config again -/

/-- No name in a directory holds a slash. -/
def PlainNames (tree : LocalTree) : Prop :=
  ∀ path names, tree path = some (.directory names) → ∀ name ∈ names, '/' ∉ name

theorem wellFormed_ofText (s : Text) : (PurePath.ofText s).WellFormed where
  root := by
    show rootOf s = [] ∨ rootOf s = ['/'] ∨ rootOf s = ['/', '/']
    unfold rootOf
    split
    · exact Or.inr (Or.inl rfl)
    · exact Or.inr (Or.inr rfl)
    · exact Or.inr (Or.inl rfl)
    · exact Or.inl rfl
  parts := by
    intro q hq
    obtain ⟨hmem, hkept⟩ := List.mem_filter.1 hq
    exact ⟨of_decide_eq_true hkept, slash_not_mem_splitOn hmem⟩

theorem wellFormed_join {p : PurePath} (hp : p.WellFormed) {name : Text} (hk : Kept name)
    (hs : '/' ∉ name) : (p.join name).WellFormed := by
  rw [join_name p hk hs]
  refine ⟨hp.root, ?_⟩
  intro q hq
  rcases List.mem_append.1 hq with hq | hq
  · exact hp.parts q hq
  · rw [List.mem_singleton.1 hq]
    exact ⟨hk, hs⟩

theorem kept_of_isConfigName {name : Text} (h : isConfigName name = true) : Kept name := by
  obtain ⟨front, rfl⟩ := List.isSuffixOf_iff_suffix.1 h
  exact kept_append (by decide)

section Again

variable {tempDir : Text} {remote : Request → Option (Option Text)} {source : Text}
  {tree tree' : LocalTree} {path : PurePath}

theorem store_ok {download : Request × Text} (h : store tempDir remote download tree = .ok (path, tree')) :
    path = (PurePath.ofText tempDir).join download.2 ∧ FileName download.2 ∧
      ∃ contents, remote download.1 = some contents ∧
        tree' = Function.update tree path (some (.file contents)) := by
  unfold store at h
  cases hremote : remote download.1 with
  | none =>
      rw [hremote] at h
      exact absurd h (by simp)
  | some contents =>
      rw [hremote] at h
      by_cases hname : FileName download.2
      · simp only [if_pos hname] at h
        split at h
        · exact absurd h (by simp)
        · obtain ⟨rfl, rfl⟩ := Prod.mk.inj (Except.ok.inj h)
          exact ⟨rfl, hname, contents, rfl, rfl⟩
      · simp only [if_neg hname] at h
        exact absurd h (by simp)

theorem search_ok {start : PurePath} (h : search start tree = .ok (path, tree')) :
    tree' = tree ∧ (path = start ∨ ∃ names name, tree start = some (.directory names) ∧
      LeastConfig names name ∧ path = start.join name) := by
  unfold search at h
  split at h
  · rename_i names hnode
    cases hhead : (configNames names).head? with
    | none =>
        rw [hhead] at h
        exact absurd h (by simp)
    | some name =>
        rw [hhead] at h
        obtain ⟨rfl, rfl⟩ := Prod.mk.inj (Except.ok.inj h)
        exact ⟨rfl, Or.inr ⟨names, name, hnode, head_configNames_iff.1 hhead, rfl⟩⟩
  · obtain ⟨rfl, rfl⟩ := Prod.mk.inj (Except.ok.inj h)
    exact ⟨rfl, Or.inl rfl⟩

theorem wellFormed_stored {name : Text} (hname : name = [] ∨ (Kept name ∧ '/' ∉ name))
    (hfile : FileName name) : ((PurePath.ofText tempDir).join name).WellFormed := by
  obtain ⟨hk, hs⟩ := hname.resolve_left hfile.1
  exact wellFormed_join (wellFormed_ofText tempDir) hk hs

/-- What a source resolves to is a path as `pathlib` keeps it. -/
theorem wellFormed_resolved (hnames : PlainNames tree)
    (h : resolveConfigPath tempDir remote source tree = .ok (path, tree')) : path.WellFormed := by
  unfold resolveConfigPath at h
  split at h
  · exact absurd h (by simp)
  · split at h
    · obtain ⟨rfl, hfile, -⟩ := store_ok h
      exact wellFormed_stored (name_ofText _) hfile
    · split at h
      · obtain ⟨rfl, hfile, -⟩ := store_ok h
        exact wellFormed_stored (name_ofText _) hfile
      · obtain ⟨-, rfl | ⟨names, name, hnode, hleast, rfl⟩⟩ := search_ok h
        · exact wellFormed_ofText source
        · exact wellFormed_join (wellFormed_ofText source) (kept_of_isConfigName hleast.1.2)
            (hnames _ _ hnode _ hleast.1.1)

/-- The text of a path below `/`, without tabs and line ends, is no URL. -/
theorem resolveConfigPath_absolute (hpath : path.WellFormed) (hroot : path.root = ['/'])
    (hchars : ∀ c ∈ path.str, isUrlChar c = true) :
    resolveConfigPath tempDir remote path.str tree = search path tree := by
  have hstr : path.str = '/' :: List.intercalate ['/'] path.parts := by
    rw [PurePath.str, if_neg (by rw [hroot]; simp), hroot]
    rfl
  obtain ⟨parsed, hparse, hscheme⟩ : ∃ parsed : ParsedUrl, urlparse path.str = some parsed ∧
      parsed.scheme = [] := by
    rw [hstr] at hchars ⊢
    exact urlparse_absolute (fun c hc => hchars c (List.mem_cons_of_mem _ hc))
      (head_intercalate hpath.parts)
  have hurl : isUrl path.str = false := by
    rw [isUrl, hparse]
    show (decide (parsed.scheme = _) || decide (parsed.scheme = _)) = false
    rw [hscheme]
    decide
  have hs3 : isS3Uri path.str = false := by
    rw [isS3Uri, hparse]
    show decide (parsed.scheme = _) = false
    rw [hscheme]
    decide
  rw [resolveConfigPath, if_neg (by rw [hparse]; exact Option.some_ne_none _), hurl,
    if_neg Bool.false_ne_true, hs3, if_neg Bool.false_ne_true, ofText_str hpath]

theorem readText_ok_iff {contents : Text} :
    readText path tree = .ok contents ↔ tree path = some (.file (some contents)) := by
  unfold readText
  split
  · rename_i c hnode
    rw [hnode]
    simp
  · rename_i hnode
    constructor
    · intro h
      exact absurd h (by simp)
    · intro h
      exact absurd h (hnode contents)

theorem findConfig_ok {contents : Text}
    (h : findConfig tempDir remote source tree = .ok (path, contents, tree')) :
    resolveConfigPath tempDir remote source tree = .ok (path, tree') ∧
      tree' path = some (.file (some contents)) := by
  obtain ⟨⟨path', tree₁⟩, hresolve, h⟩ := except_bind_ok h
  obtain ⟨contents', hread, h⟩ := except_bind_ok h
  obtain ⟨rfl, hrest⟩ := Prod.mk.inj (Except.ok.inj h)
  obtain ⟨rfl, rfl⟩ := Prod.mk.inj hrest
  exact ⟨hresolve, readText_ok_iff.1 hread⟩

/-- **The path of a config leads back to it**, with nothing downloaded, also when it was a directory or
a remote source that led to it first. -/
theorem findConfig_again {contents : Text} (hnames : PlainNames tree)
    (h : findConfig tempDir remote source tree = .ok (path, contents, tree'))
    (hroot : path.root = ['/']) (hchars : ∀ c ∈ path.str, isUrlChar c = true) :
    ∀ tempDir' remote', findConfig tempDir' remote' path.str tree' = .ok (path, contents, tree') := by
  intro tempDir' remote'
  obtain ⟨hresolve, hfile⟩ := findConfig_ok h
  have hsearch : search path tree' = .ok (path, tree') := by
    rw [search, hfile]
  have hagain : resolveConfigPath tempDir' remote' path.str tree' = search path tree' :=
    resolveConfigPath_absolute (wellFormed_resolved hnames hresolve) hroot hchars
  rw [findConfig, except_bind_eq (hagain.trans hsearch)]
  exact except_bind_eq (readText_ok_iff.2 hfile)

end Again

theorem plainNames_inputTree : PlainNames (inputTree inputNames) := by
  intro path names hnode name hname
  have hall : ∀ n ∈ inputNames, '/' ∉ n := by decide
  unfold inputTree at hnode
  split at hnode
  · injection hnode with hnode
    injection hnode with hnode
    exact hall name (hnode ▸ hname)
  · split at hnode
    · injection hnode with hnode
      exact Node.noConfusion hnode
    · exact absurd hnode (by simp)

theorem findConfig_again_input :
    findConfig "/tmp".toList (fun _ => some none) "/in/a.config.txt".toList (inputTree inputNames)
      = .ok (PurePath.ofText "/in/a.config.txt".toList, "<a/>".toList, inputTree inputNames) :=
  findConfig_again plainNames_inputTree findConfig_inputTree (by decide) (by decide) _ _

end JosfraPge.Remote.ConfigSource
