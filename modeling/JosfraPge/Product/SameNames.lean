import JosfraPge.Product.ProductRun

/-!
# Products with other texts in their groups

A product is written name by name.  Whether a name is taken does not depend on the text that is stored
under it, so other texts under the same names are written to the same end.

* `writeGroup_same`, `fillDataset_same`: two dictionaries of the same names end alike;
* `SameButTexts`: what the two datasets have in common.
-/

namespace JosfraPge.Product.SameNames

open JosfraPge.Foundation.LineText
open JosfraPge.Foundation.IntLiteral
open JosfraPge.Foundation.RunRules
open JosfraPge.Foundation.Refinement
open JosfraPge.Config.ScalarReaders
open JosfraPge.Product.OutputNames
open JosfraPge.Product.OpenDataset
open JosfraPge.Product.ProductRun

variable {D : Type} (lib : Libraries D) (other : Text → Text → Text)

/-- The same names with other texts. -/
def retextDict (d : Dict) : Dict := d.map fun e => (e.1, other e.1 e.2)

/-- A dataset `d'` that differs from `d` in the texts of its groups, as told. -/
structure SameButTexts (d d' : D) : Prop where
  attr : lib.attr d' = lib.attr d
  hasGroup : lib.hasGroup d' = lib.hasGroup d
  groupAttr : ∀ group ∈ productGroups, lib.hasGroup d group = true → ∀ name,
    lib.groupAttr d' group name = (lib.groupAttr d group name).map (other name)

/-- Two programs that end alike, with such datasets. -/
inductive SameEnd : EStateM.Result PgeError D PUnit → EStateM.Result PgeError D PUnit → Prop
  | ok {d d' : D} : SameButTexts lib other d d' → SameEnd (.ok ⟨⟩ d) (.ok ⟨⟩ d')
  | error (e : PgeError) {d d' : D} : SameButTexts lib other d d' → SameEnd (.error e d) (.error e d')

section Groups

variable {lib other} {group : Text} {d d' : D}

/-- Without groups there is nothing to differ in. -/
theorem sameButTexts_refl (h : ∀ group, lib.hasGroup d group = false) : SameButTexts lib other d d where
  attr := rfl
  hasGroup := rfl
  groupAttr := by
    intro group _ hgroup
    rw [h group] at hgroup
    exact absurd hgroup Bool.false_ne_true

/-- An attribute under a name that is kept. -/
theorem sameButTexts_kept (hlib : lib.Lawful) (hsame : SameButTexts lib other d d')
    (hgroup : lib.hasGroup d group = true) {name : Text} (hname : lib.nameUse name = .kept)
    (value : Text) :
    ∃ d₁ d₁', lib.setGroupAttr d group name value = some d₁ ∧
      lib.setGroupAttr d' group name (other name value) = some d₁' ∧
      SameButTexts lib other d₁ d₁' ∧ lib.hasGroup d₁ = lib.hasGroup d := by
  have hgroup' : lib.hasGroup d' group = true := by
    rw [hsame.hasGroup]
    exact hgroup
  obtain ⟨d₁, hset, hvalue, hframe⟩ := hlib.setGroupAttr_kept hgroup hname value
  obtain ⟨d₁', hset', hvalue', hframe'⟩ := hlib.setGroupAttr_kept hgroup' hname (other name value)
  obtain ⟨hattr, hgroups⟩ := hlib.setGroupAttr_frame hset
  obtain ⟨hattr', hgroups'⟩ := hlib.setGroupAttr_frame hset'
  refine ⟨d₁, d₁', hset, hset', ⟨?_, ?_, ?_⟩, hgroups⟩
  · rw [hattr', hattr, hsame.attr]
  · rw [hgroups', hgroups, hsame.hasGroup]
  · intro group₁ hmem hthere name₁
    rw [hgroups] at hthere
    by_cases hsamePlace : group₁ = group ∧ name₁ = name
    · obtain ⟨rfl, rfl⟩ := hsamePlace
      rw [hvalue', hvalue]
      rfl
    · have hplace : group₁ ≠ group ∨ name₁ ≠ name := by
        by_cases hg : group₁ = group
        · exact Or.inr fun hn => hsamePlace ⟨hg, hn⟩
        · exact Or.inl hg
      rw [hframe' _ _ hplace, hframe _ _ hplace]
      exact hsame.groupAttr group₁ hmem hthere name₁

/-- **The attributes of a group**, one after the other. -/
theorem setGroupAttributes_same (hlib : lib.Lawful) {scalars : Dict}
    (hnames : NotElsewhere lib scalars) (hsame : SameButTexts lib other d d')
    (hgroup : lib.hasGroup d group = true) :
    SameEnd lib other ((forM scalars fun e => setGroupAttribute lib group e.1 e.2).run d)
      ((forM (retextDict other scalars) fun e => setGroupAttribute lib group e.1 e.2).run d') := by
  induction scalars generalizing d d' with
  | nil => exact SameEnd.ok hsame
  | cons e es ih =>
      rw [retextDict, List.map_cons, List.forM_cons, List.forM_cons]
      cases huse : lib.nameUse e.1 with
      | kept =>
          obtain ⟨d₁, d₁', hset, hset', hsame₁, hgroups⟩ :=
            sameButTexts_kept hlib hsame hgroup huse e.2
          rw [run_bind_ok (run_setGroupAttribute hset), run_bind_ok (run_setGroupAttribute hset')]
          exact ih (fun e' he' => hnames e' (List.mem_cons_of_mem _ he')) hsame₁
            ((congrFun hgroups group).trans hgroup)
      | refused =>
          rw [run_bind_error (run_setGroupAttribute_none (hlib.setGroupAttr_refused huse d group e.2)),
            run_bind_error (run_setGroupAttribute_none
              (hlib.setGroupAttr_refused huse d' group (other e.1 e.2)))]
          exact SameEnd.error _ hsame
      | elsewhere => exact absurd huse (hnames e List.mem_cons_self)

theorem writeGroup_same (hlib : lib.Lawful) (hmem : group ∈ productGroups) {scalars : Dict}
    (hnames : NotElsewhere lib scalars) (hsame : SameButTexts lib other d d')
    (hnew : lib.hasGroup d group = false) :
    SameEnd lib other ((writeGroup lib group scalars).run d)
      ((writeGroup lib group (retextDict other scalars)).run d') := by
  have hnew' : lib.hasGroup d' group = false := by
    rw [hsame.hasGroup]
    exact hnew
  obtain ⟨hattr, hgroups, hattrs⟩ := hlib.createGroup_spec hmem hnew
  obtain ⟨hattr', hgroups', hattrs'⟩ := hlib.createGroup_spec hmem hnew'
  rw [run_createGroup, run_createGroup]
  refine setGroupAttributes_same hlib hnames ⟨?_, ?_, ?_⟩ (hasGroup_createGroup hlib hmem hnew)
  · rw [hattr', hattr, hsame.attr]
  · funext other₁
    rw [hgroups', hgroups, hsame.hasGroup]
  · intro group₁ hmem₁ hthere name
    rw [hattrs', hattrs]
    by_cases hg : group₁ = group
    · rw [if_pos hg, if_pos hg]
      rfl
    · rw [if_neg hg, if_neg hg]
      rw [hgroups, decide_eq_false hg, Bool.false_or] at hthere
      exact hsame.groupAttr group₁ hmem₁ hthere name

end Groups

/-! ## Whole datasets -/

section Filling

variable {lib other} {g s v r : Text} {aux input : Dict} {d : D}

variable (lib g s v r) in
/-- The block of `write_netcdf`, up to the groups. -/
def writeHeader : Open D PUnit := do
  let number ← ofExcept (requireInt g)
  writeGlobals lib number s v r

theorem fillDataset_eq : fillDataset lib g s v r aux input = (do
    writeHeader lib g s v r
    writeGroup lib dynamicAuxiliaryInputFiles aux
    writeGroup lib inputProductFiles input) := by
  rw [fillDataset, writeHeader, bind_assoc]

/-- Whatever becomes of the global attributes, there are no groups yet. -/
theorem hasGroup_writeHeader (hlib : lib.Lawful) (hblank : Blankness lib d) (group : Text) :
    lib.hasGroup (stateAfter ((writeHeader lib g s v r).run d)) group = false := by
  cases hn : parseInt g with
  | none =>
      rw [writeHeader, run_ofExcept_error (requireInt_none hn)]
      exact hblank.hasGroup group
  | some n =>
      rw [writeHeader, run_ofExcept_ok (requireInt_ok_iff.2 hn)]
      cases hnumber : lib.takesNumber n with
      | true =>
          obtain ⟨d₁, hrun, -, hgroups, -⟩ := writeGlobals_ok hlib hnumber s v r d
          rw [hrun]
          exact (congrFun hgroups group).trans (hblank.hasGroup group)
      | false =>
          rw [writeGlobals_refused hlib hnumber s v r d]
          exact hblank.hasGroup group

/-- **Other texts under the same names are written to the same end.** -/
theorem fillDataset_same (hlib : lib.Lawful) (hblank : Blankness lib d) (haux : NotElsewhere lib aux)
    (hinput : NotElsewhere lib input) :
    SameEnd lib other ((fillDataset lib g s v r aux input).run d)
      ((fillDataset lib g s v r (retextDict other aux) (retextDict other input)).run d) := by
  have hnone := hasGroup_writeHeader (g := g) (s := s) (v := v) (r := r) hlib hblank
  rw [fillDataset_eq, fillDataset_eq]
  cases hheader : (writeHeader lib g s v r).run d with
  | error e d₁ =>
      rw [hheader] at hnone
      rw [run_bind_error hheader, run_bind_error hheader]
      exact SameEnd.error e (sameButTexts_refl hnone)
  | ok _ d₁ =>
      rw [hheader] at hnone
      have hnone : ∀ group, lib.hasGroup d₁ group = false := hnone
      rw [run_bind_ok hheader, run_bind_ok hheader]
      have hsame₁ : SameButTexts lib other d₁ d₁ := sameButTexts_refl hnone
      have hfirst := writeGroup_same hlib aux_mem haux hsame₁ (hnone dynamicAuxiliaryInputFiles)
      generalize hrun₂ : (writeGroup lib dynamicAuxiliaryInputFiles aux).run d₁ = result at hfirst
      generalize hrun₂' : (writeGroup lib dynamicAuxiliaryInputFiles (retextDict other aux)).run d₁
        = result' at hfirst
      cases hfirst with
      | error e hsame₂ =>
          rw [run_bind_error hrun₂, run_bind_error hrun₂']
          exact SameEnd.error e hsame₂
      | ok hsame₂ =>
          rw [run_bind_ok hrun₂, run_bind_ok hrun₂']
          have hadded := groupAdded_of_ok hlib aux_mem (hnone _) hrun₂
          exact writeGroup_same hlib input_mem hinput hsame₂ (hasGroup_input hnone hadded)

end Filling

end JosfraPge.Product.SameNames
