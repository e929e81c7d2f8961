import JosfraPge.Foundation.Refinement
import JosfraPge.Product.CasMetadata

/-!
# What the PGE takes from its libraries

`ElementTree` parses the config, `netCDF4` keeps datasets, the file system writes texts.  None of them is
part of the repository, so they are parameters: their operations, what can be observed of a dataset, and
the laws that the PGE relies on.

* `Libraries`, `Libraries.Lawful`: the operations and their laws;
* `writeGlobals_ok`, `writeGroup_ok`: what is stored when every attribute is taken;
* `writeGroup_keeps`: what a group leaves alone, however writing it ends;
* `lawful_plain`: libraries that keep the laws.
-/

namespace JosfraPge.Product.OpenDataset

open JosfraPge.Foundation.LineText
open JosfraPge.Foundation.PosixPath
open JosfraPge.Foundation.XmlTree
open JosfraPge.Foundation.RunRules
open JosfraPge.Foundation.Refinement
open JosfraPge.Config.ScalarReaders
open JosfraPge.Product.OutputNames
open JosfraPge.Product.CasMetadata

/-! ## The operations -/

/-- The value of an attribute. -/
inductive AttrValue where
  | number (n : ℤ)
  | text (t : Text)
deriving DecidableEq

/-- What becomes of an attribute that is set under a name. -/
inductive NameUse where
  /-- It is stored under that name. -/
  | kept
  /-- An error is raised: the name is reserved or no name for an attribute. -/
  | refused
  /-- It is stored under another form of the name, or on the Python object only. -/
  | elsewhere
deriving DecidableEq

/-- What the PGE uses of others, with datasets of type `D`. -/
structure Libraries (D : Type) where
  /-- `ET.parse(path).getroot()`, by the contents of the file. -/
  parse : Text → Option Element
  /-- `Dataset(path, "w", format="NETCDF4")`, `none` for an error, which leaves no file. -/
  create : PurePath → Option D
  /-- `setattr(dataset, name, value)`, `none` for an error. -/
  setAttr : D → Text → AttrValue → Option D
  /-- `dataset.createGroup(name)` -/
  createGroup : D → Text → D
  /-- `setattr(group, name, value)`, `none` for an error. -/
  setGroupAttr : D → Text → Text → Text → Option D
  /-- `path.write_text` succeeds. -/
  writes : PurePath → Bool
  /-- The attribute of a dataset that is stored under a name. -/
  attr : D → Text → Option AttrValue
  hasGroup : D → Text → Bool
  /-- The attribute of a group that is stored under a name. -/
  groupAttr : D → Text → Text → Option Text
  /-- An integer that an attribute can hold. -/
  takesNumber : ℤ → Bool
  nameUse : Text → NameUse

def startGranuleNumberName : Text := "StartGranuleNumber".toList

def startDateTimeName : Text := "StartDateTime".toList

def versionName : Text := "Version".toList

def randomStringName : Text := "RandomString".toList

/-- The global attributes of a product. -/
def globalNames : List Text :=
  [startGranuleNumberName, startDateTimeName, versionName, randomStringName]

def dynamicAuxiliaryInputFiles : Text := "DynamicAuxiliaryInputFiles".toList

def inputProductFiles : Text := "InputProductFiles".toList

/-- The groups of a product. -/
def productGroups : List Text := [dynamicAuxiliaryInputFiles, inputProductFiles]

variable {D : Type}

/-- An attribute can hold this value. -/
def Libraries.Takes (lib : Libraries D) : AttrValue → Prop
  | .number n => lib.takesNumber n = true
  | .text _ => True

/-- What `netCDF4` documents of the operations that the PGE uses. -/
structure Libraries.Lawful (lib : Libraries D) : Prop where
  create_attr : ∀ {path d}, lib.create path = some d → ∀ name, lib.attr d name = none
  create_hasGroup : ∀ {path d}, lib.create path = some d → ∀ group, lib.hasGroup d group = false
  globalNames_kept : ∀ name ∈ globalNames, lib.nameUse name = .kept
  setAttr_kept : ∀ {name value}, lib.nameUse name = .kept → lib.Takes value → ∀ d,
    ∃ d', lib.setAttr d name value = some d' ∧ lib.attr d' name = some value
  setAttr_number : ∀ {n}, lib.takesNumber n = false → ∀ d name, lib.setAttr d name (.number n) = none
  setAttr_frame : ∀ {d d' name value}, lib.nameUse name = .kept → lib.setAttr d name value = some d' →
    (∀ other, other ≠ name → lib.attr d' other = lib.attr d other) ∧
      lib.hasGroup d' = lib.hasGroup d ∧ lib.groupAttr d' = lib.groupAttr d
  createGroup_spec : ∀ {d group}, group ∈ productGroups → lib.hasGroup d group = false →
    lib.attr (lib.createGroup d group) = lib.attr d ∧
      (∀ other, lib.hasGroup (lib.createGroup d group) other
        = (decide (other = group) || lib.hasGroup d other)) ∧
      ∀ other name, lib.groupAttr (lib.createGroup d group) other name
        = if other = group then none else lib.groupAttr d other name
  setGroupAttr_kept : ∀ {d group name}, lib.hasGroup d group = true → lib.nameUse name = .kept →
    ∀ value, ∃ d', lib.setGroupAttr d group name value = some d' ∧
      lib.groupAttr d' group name = some value ∧
      ∀ other name', (other ≠ group ∨ name' ≠ name) →
        lib.groupAttr d' other name' = lib.groupAttr d other name'
  setGroupAttr_refused : ∀ {name}, lib.nameUse name = .refused → ∀ d group value,
    lib.setGroupAttr d group name value = none
  setGroupAttr_elsewhere : ∀ {d group name}, lib.hasGroup d group = true →
    lib.nameUse name = .elsewhere → ∀ value, ∃ d', lib.setGroupAttr d group name value = some d' ∧
      ∀ other name', (other ≠ group ∨ lib.nameUse name' ≠ .kept) →
        lib.groupAttr d' other name' = lib.groupAttr d other name'
  setGroupAttr_frame : ∀ {d d' group name value}, lib.setGroupAttr d group name value = some d' →
    lib.attr d' = lib.attr d ∧ lib.hasGroup d' = lib.hasGroup d

/-! ## Programs on an open dataset -/

/-- A program on a dataset that is open. -/
abbrev Open (D : Type) := EStateM PgeError D

section Programs

variable (lib : Libraries D)

/-- `dataset.name = value` -/
def setAttribute (name : Text) (value : AttrValue) : Open D PUnit := fun d =>
  match lib.setAttr d name value with
  | some d' => .ok ⟨⟩ d'
  | none => .error (.notStored name) d

/-- `setattr(group, name, value)` -/
def setGroupAttribute (group name value : Text) : Open D PUnit := fun d =>
  match lib.setGroupAttr d group name value with
  | some d' => .ok ⟨⟩ d'
  | none => .error (.notStored name) d

/-- The global attributes of the product. -/
def writeGlobals (number : ℤ) (startDateTime version randomString : Text) : Open D PUnit := do
  setAttribute lib startGranuleNumberName (.number number)
  setAttribute lib startDateTimeName (.text startDateTime)
  setAttribute lib versionName (.text version)
  setAttribute lib randomStringName (.text randomString)

/-- One group of the product with its attributes. -/
def writeGroup (group : Text) (scalars : Dict) : Open D PUnit := do
  modify fun d => lib.createGroup d group
  forM scalars fun e => setGroupAttribute lib group e.1 e.2

end Programs

/-! ## The global attributes -/

section Globals

variable {lib : Libraries D} {d d' : D}

theorem run_setAttribute {name : Text} {value : AttrValue} (h : lib.setAttr d name value = some d') :
    (setAttribute lib name value).run d = .ok ⟨⟩ d' := by
  show setAttribute lib name value d = _
  rw [setAttribute, h]

/-- A dataset with the global attributes of a product. -/
structure Globals (lib : Libraries D) (n : ℤ) (s v r : Text) (d : D) : Prop where
  number : lib.attr d startGranuleNumberName = some (.number n)
  time : lib.attr d startDateTimeName = some (.text s)
  version : lib.attr d versionName = some (.text v)
  randomString : lib.attr d randomStringName = some (.text r)

theorem Globals.congr {n : ℤ} {s v r : Text} (h : Globals lib n s v r d)
    (hattr : lib.attr d' = lib.attr d) : Globals lib n s v r d' := by
  obtain ⟨hn, hs, hv, hr⟩ := h
  rw [← hattr] at hn hs hv hr
  exact ⟨hn, hs, hv, hr⟩

/-- Two datasets with the same groups. -/
def SameGroups (lib : Libraries D) (d d' : D) : Prop :=
  lib.hasGroup d' = lib.hasGroup d ∧ lib.groupAttr d' = lib.groupAttr d

theorem SameGroups.trans {d'' : D} (h : SameGroups lib d d') (h' : SameGroups lib d' d'') :
    SameGroups lib d d'' := ⟨h'.1.trans h.1, h'.2.trans h.2⟩

/-- One global attribute is stored, and the others stay. -/
theorem setAttribute_ok (hlib : lib.Lawful) (name : Text) (hname : name ∈ globalNames)
    (value : AttrValue) (hvalue : lib.Takes value) (d : D) :
    ∃ d', (setAttribute lib name value).run d = .ok ⟨⟩ d' ∧ lib.attr d' name = some value ∧
      (∀ other, other ≠ name → lib.attr d' other = lib.attr d other) ∧ SameGroups lib d d' := by
  have hkept := hlib.globalNames_kept name hname
  obtain ⟨d', hset, hattr⟩ := hlib.setAttr_kept hkept hvalue d
  obtain ⟨hother, hgroups⟩ := hlib.setAttr_frame hkept hset
  exact ⟨d', run_setAttribute hset, hattr, hother, hgroups⟩

/-- **The global attributes are stored when the number can be.** -/
theorem writeGlobals_ok (hlib : lib.Lawful) {n : ℤ} (hn : lib.takesNumber n = true) (s v r : Text)
    (d : D) : ∃ d', (writeGlobals lib n s v r).run d = .ok ⟨⟩ d' ∧ Globals lib n s v r d' ∧
      SameGroups lib d d' := by
  obtain ⟨d₁, h₁, hn₁, -, hg₁⟩ := setAttribute_ok hlib startGranuleNumberName (by decide)
    (.number n) hn d
  obtain ⟨d₂, h₂, hs₂, ho₂, hg₂⟩ := setAttribute_ok hlib startDateTimeName (by decide) (.text s)
    trivial d₁
  obtain ⟨d₃, h₃, hv₃, ho₃, hg₃⟩ := setAttribute_ok hlib versionName (by decide) (.text v)
    trivial d₂
  obtain ⟨d₄, h₄, hr₄, ho₄, hg₄⟩ := setAttribute_ok hlib randomStringName (by decide) (.text r)
    trivial d₃
  refine ⟨d₄, ?_, ⟨?_, ?_, ?_, hr₄⟩, hg₁.trans (hg₂.trans (hg₃.trans hg₄))⟩
  · rw [writeGlobals, run_bind_ok h₁, run_bind_ok h₂, run_bind_ok h₃, h₄]
  · rw [ho₄ _ (by decide), ho₃ _ (by decide), ho₂ _ (by decide), hn₁]
  · rw [ho₄ _ (by decide), ho₃ _ (by decide), hs₂]
  · rw [ho₄ _ (by decide), hv₃]

/-- A number that cannot be stored is found out with the dataset as it was. -/
theorem writeGlobals_refused (hlib : lib.Lawful) {n : ℤ} (hn : lib.takesNumber n = false)
    (s v r : Text) (d : D) :
    (writeGlobals lib n s v r).run d = .error (.notStored startGranuleNumberName) d := by
  apply run_bind_error
  show setAttribute lib startGranuleNumberName (.number n) d = _
  rw [setAttribute, hlib.setAttr_number hn d startGranuleNumberName]

end Globals

/-! ## The groups -/

section Groups

variable {lib : Libraries D} {group : Text}

theorem run_setGroupAttribute {name value : Text} {d d' : D}
    (h : lib.setGroupAttr d group name value = some d') :
    (setGroupAttribute lib group name value).run d = .ok ⟨⟩ d' := by
  show setGroupAttribute lib group name value d = _
  rw [setGroupAttribute, h]

theorem run_setGroupAttribute_none {name value : Text} {d : D}
    (h : lib.setGroupAttr d group name value = none) :
    (setGroupAttribute lib group name value).run d = .error (.notStored name) d := by
  show setGroupAttribute lib group name value d = _
  rw [setGroupAttribute, h]

/-- Attributes under names that are kept are all stored, in a dataset that has their group. -/
theorem setGroupAttributes_ok (hlib : lib.Lawful) {scalars : Dict}
    (hnames : ∀ e ∈ scalars, lib.nameUse e.1 = .kept) (hkeys : (scalars.map Prod.fst).Nodup) {d : D}
    (hgroup : lib.hasGroup d group = true) :
    ∃ d', (forM scalars fun e => setGroupAttribute lib group e.1 e.2).run d = .ok ⟨⟩ d' ∧
      (∀ e ∈ scalars, lib.groupAttr d' group e.1 = some e.2) ∧
      (∀ other name, (other ≠ group ∨ name ∉ scalars.map Prod.fst) →
        lib.groupAttr d' other name = lib.groupAttr d other name) := by
  induction scalars generalizing d with
  | nil => exact ⟨d, rfl, fun e he => absurd he List.not_mem_nil, fun _ _ _ => rfl⟩
  | cons e es ih =>
      rw [List.map_cons, List.nodup_cons] at hkeys
      obtain ⟨d₁, hset, hstored, hframe⟩ :=
        hlib.setGroupAttr_kept hgroup (hnames e List.mem_cons_self) e.2
      have hgroup₁ : lib.hasGroup d₁ group = true := by
        rw [(hlib.setGroupAttr_frame hset).2]
        exact hgroup
      obtain ⟨d₂, hrun, hall, hrest⟩ :=
        ih (fun e he => hnames e (List.mem_cons_of_mem _ he)) hkeys.2 hgroup₁
      refine ⟨d₂, ?_, ?_, ?_⟩
      · rw [List.forM_cons, run_bind_ok (run_setGroupAttribute hset), hrun]
      · intro e' he'
        rcases List.mem_cons.1 he' with rfl | he'
        · rw [hrest group e'.1 (Or.inr hkeys.1), hstored]
        · exact hall e' he'
      · intro other name hother
        rw [List.map_cons, List.mem_cons, not_or] at hother
        have hother₂ := hother.imp_right And.right
        have hother₁ := hother.imp_right And.left
        rw [hrest other name hother₂, hframe other name hother₁]

/-- A dataset `d'` that differs from `d` in attributes of a group under names that are kept only. -/
structure KeepsOthers (lib : Libraries D) (group : Text) (d d' : D) : Prop where
  attr : lib.attr d' = lib.attr d
  hasGroup : lib.hasGroup d' = lib.hasGroup d
  groupAttr : ∀ other name, (other ≠ group ∨ lib.nameUse name ≠ .kept) →
    lib.groupAttr d' other name = lib.groupAttr d other name

theorem KeepsOthers.refl (d : D) : KeepsOthers lib group d d := ⟨rfl, rfl, fun _ _ _ => rfl⟩

theorem KeepsOthers.trans {d d' d'' : D} (h : KeepsOthers lib group d d')
    (h' : KeepsOthers lib group d' d'') : KeepsOthers lib group d d'' :=
  ⟨h'.attr.trans h.attr, h'.hasGroup.trans h.hasGroup,
    fun other name hother => (h'.groupAttr other name hother).trans (h.groupAttr other name hother)⟩

/-- However setting an attribute ends, nothing else is changed. -/
theorem setGroupAttribute_keeps (hlib : lib.Lawful) {d : D} (hgroup : lib.hasGroup d group = true)
    (name value : Text) :
    KeepsOthers lib group d (stateAfter ((setGroupAttribute lib group name value).run d)) := by
  cases huse : lib.nameUse name with
  | kept =>
      obtain ⟨d', hset, -, hframe⟩ := hlib.setGroupAttr_kept hgroup huse value
      obtain ⟨hattr, hgroups⟩ := hlib.setGroupAttr_frame hset
      rw [run_setGroupAttribute hset]
      refine ⟨hattr, hgroups, ?_⟩
      intro other name' hother
      apply hframe
      refine hother.imp_right fun hunkept hsame => hunkept ?_
      rw [hsame, huse]
  | refused =>
      rw [run_setGroupAttribute_none (hlib.setGroupAttr_refused huse d group value)]
      exact KeepsOthers.refl d
  | elsewhere =>
      obtain ⟨d', hset, hframe⟩ := hlib.setGroupAttr_elsewhere hgroup huse value
      obtain ⟨hattr, hgroups⟩ := hlib.setGroupAttr_frame hset
      rw [run_setGroupAttribute hset]
      exact ⟨hattr, hgroups, hframe⟩

theorem setGroupAttributes_keeps (hlib : lib.Lawful) (scalars : Dict) {d : D}
    (hgroup : lib.hasGroup d group = true) :
    KeepsOthers lib group d
      (stateAfter ((forM scalars fun e => setGroupAttribute lib group e.1 e.2).run d)) := by
  induction scalars generalizing d with
  | nil => exact KeepsOthers.refl d
  | cons e es ih =>
      have hstep := setGroupAttribute_keeps hlib hgroup e.1 e.2
      rw [List.forM_cons]
      cases hrun : (setGroupAttribute lib group e.1 e.2).run d with
      | error err d₁ =>
          rw [hrun] at hstep
          rw [run_bind_error hrun]
          exact hstep
      | ok _ d₁ =>
          rw [hrun] at hstep
          rw [run_bind_ok hrun]
          have hgroup₁ : lib.hasGroup d₁ group = true :=
            (congrFun hstep.hasGroup group).trans hgroup
          exact hstep.trans (ih hgroup₁)

/-- The new group is there, and has no attributes. -/
theorem run_createGroup (scalars : Dict) (d : D) : (writeGroup lib group scalars).run d
    = (forM scalars fun e => setGroupAttribute lib group e.1 e.2).run (lib.createGroup d group) := rfl

theorem hasGroup_createGroup (hlib : lib.Lawful) (hgroup : group ∈ productGroups) {d : D}
    (hnew : lib.hasGroup d group = false) : lib.hasGroup (lib.createGroup d group) group = true := by
  rw [(hlib.createGroup_spec hgroup hnew).2.1 group, decide_eq_true rfl]
  rfl

/-- **A group is written with all its attributes when their names are kept.** -/
theorem writeGroup_ok (hlib : lib.Lawful) (hgroup : group ∈ productGroups) {scalars : Dict}
    (hnames : ∀ e ∈ scalars, lib.nameUse e.1 = .kept) (hkeys : (scalars.map Prod.fst).Nodup) {d : D}
    (hnew : lib.hasGroup d group = false) :
    ∃ d', (writeGroup lib group scalars).run d = .ok ⟨⟩ d' ∧
      ∀ e ∈ scalars, lib.groupAttr d' group e.1 = some e.2 := by
  obtain ⟨d', hrun, hall, -⟩ :=
    setGroupAttributes_ok hlib hnames hkeys (hasGroup_createGroup hlib hgroup hnew)
  exact ⟨d', hrun, hall⟩

/-- What is left of a dataset, however writing a new group ends. -/
structure GroupAdded (lib : Libraries D) (group : Text) (d d' : D) : Prop where
  attr : lib.attr d' = lib.attr d
  hasGroup : ∀ other, lib.hasGroup d' other = (decide (other = group) || lib.hasGroup d other)
  others : ∀ other, other ≠ group → lib.groupAttr d' other = lib.groupAttr d other
  unkept : ∀ name, lib.nameUse name ≠ .kept → lib.groupAttr d' group name = none

/-- **However writing a group ends**, the rest of the dataset is left alone, and no attribute is stored
under a name that is not kept. -/
theorem writeGroup_keeps (hlib : lib.Lawful) (hgroup : group ∈ productGroups) (scalars : Dict) {d : D}
    (hnew : lib.hasGroup d group = false) :
    GroupAdded lib group d (stateAfter ((writeGroup lib group scalars).run d)) := by
  obtain ⟨hattr, hgroups, hattrs⟩ := hlib.createGroup_spec hgroup hnew
  have hkeeps := setGroupAttributes_keeps hlib scalars (hasGroup_createGroup hlib hgroup hnew)
  rw [run_createGroup]
  refine ⟨hkeeps.attr.trans hattr, ?_, ?_, ?_⟩
  · intro other
    rw [hkeeps.hasGroup, hgroups]
  · intro other hother
    funext name
    rw [hkeeps.groupAttr other name (Or.inl hother), hattrs, if_neg hother]
  · intro name hname
    rw [hkeeps.groupAttr group name (Or.inr hname), hattrs, if_pos rfl]

theorem groupAdded_of_ok (hlib : lib.Lawful) (hgroup : group ∈ productGroups) {scalars : Dict}
    {d d' : D} (hnew : lib.hasGroup d group = false)
    (h : (writeGroup lib group scalars).run d = .ok ⟨⟩ d') : GroupAdded lib group d d' := by
  have hadded := writeGroup_keeps hlib hgroup scalars hnew
  rw [h] at hadded
  exact hadded

end Groups

/-! ## Libraries that keep the laws -/

/-- A dataset as its attributes and its groups. -/
structure PlainDataset where
  attr : Text → Option AttrValue
  group : Text → Option (Text → Option Text)

/-- A name that `netCDF4` has for a property of its own, and refuses. -/
def isReserved (name : Text) : Bool :=
  ["path".toList, "parent".toList, "groups".toList, "dimensions".toList,
    "variables".toList].contains name

/-- A name that `netCDF4` has for a property of a variable, and sets on the Python object. -/
def isPythonName (name : Text) : Bool := ["ndim".toList, "mask".toList, "scale".toList].contains name

def plainUse (name : Text) : NameUse :=
  if isReserved name ∨ name = [] ∨ '/' ∈ name then .refused
  else if isPythonName name then .elsewhere
  else .kept

/-- The integers of 64 bits, signed or unsigned. -/
def isInt64 (n : ℤ) : Bool := decide (-2 ^ 63 ≤ n ∧ n < 2 ^ 64)

def plainSetAttr (d : PlainDataset) (name : Text) (value : AttrValue) : Option PlainDataset :=
  let set : PlainDataset := { d with attr := Function.update d.attr name (some value) }
  match plainUse name, value with
  | .kept, .text _ => some set
  | .kept, .number n => if isInt64 n then some set else none
  | .refused, _ => none
  | .elsewhere, .text _ => some d
  | .elsewhere, .number n => if isInt64 n then some d else none

def plainSetGroupAttr (d : PlainDataset) (group name value : Text) : Option PlainDataset :=
  match plainUse name with
  | .kept => some { d with group := Function.update d.group group ((d.group group).map fun attrs =>
      Function.update attrs name (some value)) }
  | .refused => none
  | .elsewhere => some d

/-- Datasets kept as they are, with a parser of configs; a file can be opened and written where its
path has no directory below the output directory and no name beyond 255 characters. -/
def plainLibraries (parse : Text → Option Element) : Libraries PlainDataset where
  parse := parse
  create := fun path =>
    if path.parts.length ≤ 2 ∧ path.name.length ≤ 255 then some ⟨fun _ => none, fun _ => none⟩ else none
  setAttr := plainSetAttr
  createGroup := fun d group => { d with group := Function.update d.group group (some fun _ => none) }
  setGroupAttr := plainSetGroupAttr
  writes := fun path => decide (path.parts.length ≤ 2 ∧ path.name.length ≤ 255)
  attr := PlainDataset.attr
  hasGroup := fun d group => (d.group group).isSome
  groupAttr := fun d group name => (d.group group).bind fun attrs => attrs name
  takesNumber := isInt64
  nameUse := plainUse

theorem bind_update (f : Text → Option (Text → Option Text)) (group name : Text) (value : Text)
    (other name' : Text) (h : other ≠ group ∨ name' ≠ name) :
    (Function.update f group ((f group).map fun attrs =>
        Function.update attrs name (some value)) other).bind (fun attrs => attrs name')
      = (f other).bind fun attrs => attrs name' := by
  by_cases hother : other = group
  · rw [hother, Function.update_self]
    cases f group with
    | none => rfl
    | some attrs => exact Function.update_of_ne (h.resolve_left (not_not.2 hother)) _ _
  · rw [Function.update_of_ne hother]

theorem isSome_update_map (f : Text → Option (Text → Option Text)) (group : Text)
    (g : (Text → Option Text) → Text → Option Text) (other : Text) :
    (Function.update f group ((f group).map g) other).isSome = (f other).isSome := by
  by_cases hother : other = group
  · rw [hother, Function.update_self, Option.isSome_map]
  · rw [Function.update_of_ne hother]

theorem plainSetGroupAttr_kept {d : PlainDataset} {group name : Text} (h : plainUse name = .kept)
    (value : Text) : plainSetGroupAttr d group name value
      = some { d with group := Function.update d.group group ((d.group group).map fun attrs =>
          Function.update attrs name (some value)) } := by
  rw [plainSetGroupAttr, h]

/-- An attribute is set when it can hold the value. -/
theorem plainSetAttr_kept_iff (parse : Text → Option Element) {d d' : PlainDataset} {name : Text}
    {value : AttrValue} (hname : plainUse name = .kept) : plainSetAttr d name value = some d' ↔
      (plainLibraries parse).Takes value ∧
        { d with attr := Function.update d.attr name (some value) } = d' := by
  cases value with
  | number n =>
      simp only [plainSetAttr, hname, Option.ite_none_right_eq_some, Option.some.injEq]
      exact Iff.rfl
  | text t =>
      simp only [plainSetAttr, hname, Option.some.injEq]
      exact (and_iff_right trivial).symm

/-- **The plain libraries keep the laws**, with any parser. -/
theorem lawful_plain (parse : Text → Option Element) : (plainLibraries parse).Lawful where
  create_attr := by
    intro path d h name
    obtain ⟨-, hd⟩ := Option.ite_none_right_eq_some.1 h
    rw [← Option.some.inj hd]
    rfl
  create_hasGroup := by
    intro path d h group
    obtain ⟨-, hd⟩ := Option.ite_none_right_eq_some.1 h
    rw [← Option.some.inj hd]
    rfl
  globalNames_kept := by
    show ∀ name ∈ globalNames, plainUse name = .kept
    decide
  setAttr_kept := by
    intro name value hname hvalue d
    exact ⟨_, (plainSetAttr_kept_iff parse hname).2 ⟨hvalue, rfl⟩, Function.update_self _ _ _⟩
  setAttr_number := by
    intro n hn d name
    have hn : isInt64 n = false := hn
    show plainSetAttr d name (.number n) = none
    cases huse : plainUse name <;> simp [plainSetAttr, huse, hn]
  setAttr_frame := by
    intro d d' name value hname h
    obtain ⟨-, rfl⟩ := (plainSetAttr_kept_iff parse hname).1 h
    exact ⟨fun other hother => Function.update_of_ne hother _ _, rfl, rfl⟩
  createGroup_spec := by
    intro d group _ _
    refine ⟨rfl, ?_, ?_⟩
    · intro other
      show (Function.update d.group group (some fun _ => none) other).isSome = _
      by_cases hother : other = group
      · rw [hother, Function.update_self, decide_eq_true rfl]
        rfl
      · rw [Function.update_of_ne hother, decide_eq_false hother]
        rfl
    · intro other name
      show (Function.update d.group group (some fun _ => none) other).bind _ = _
      by_cases hother : other = group
      · rw [hother, Function.update_self, if_pos rfl]
        rfl
      · rw [Function.update_of_ne hother, if_neg hother]
        rfl
  setGroupAttr_kept := by
    intro d group name hgroup hname value
    refine ⟨_, plainSetGroupAttr_kept hname value, ?_, ?_⟩
    · obtain ⟨attrs, hattrs⟩ := Option.isSome_iff_exists.1 hgroup
      show (Function.update d.group group _ group).bind _ = _
      rw [Function.update_self, hattrs]
      exact Function.update_self _ _ _
    · intro other name' hother
      exact bind_update d.group group name value other name' hother
  setGroupAttr_refused := by
    intro name hname d group value
    have hname : plainUse name = .refused := hname
    show plainSetGroupAttr d group name value = none
    rw [plainSetGroupAttr, hname]
  setGroupAttr_elsewhere := by
    intro d group name _ hname value
    have hname : plainUse name = .elsewhere := hname
    refine ⟨d, ?_, fun _ _ _ => rfl⟩
    show plainSetGroupAttr d group name value = some d
    rw [plainSetGroupAttr, hname]
  setGroupAttr_frame := by
    intro d d' group name value h
    have h : plainSetGroupAttr d group name value = some d' := h
    unfold plainSetGroupAttr at h
    split at h
    · rw [← Option.some.inj h]
      refine ⟨rfl, funext fun other => ?_⟩
      exact isSome_update_map d.group group _ other
    · exact absurd h (by simp)
    · rw [← Option.some.inj h]
      exact ⟨rfl, rfl⟩

end JosfraPge.Product.OpenDataset
