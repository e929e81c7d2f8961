import JosfraPge.Foundation.XmlTree

/-!
# The two config readers of the PGE

`get_scalar` looks one scalar up in one group and refuses absent text; `get_group_scalars` folds the
scalars of a group into a dictionary.  Both look at the first group of the given name only.

A dictionary is an association list in insertion order; writing a key that is present changes its
value and keeps its place.
-/

namespace JosfraPge.Config.ScalarReaders

open JosfraPge.Foundation.LineText
open JosfraPge.Foundation.XmlTree

/-! ## Dictionaries -/

/-- An ordered dictionary of strings. -/
abbrev Dict := List (Text × Text)

/-- `d[k] = v` -/
def Dict.set (d : Dict) (k v : Text) : Dict :=
  if d.any (fun e => e.1 == k) then d.map fun e => if e.1 = k then (k, v) else e
  else d ++ [(k, v)]

theorem Dict.set_keys (d : Dict) (k v : Text) :
    (Dict.set d k v).map Prod.fst = if k ∈ d.map Prod.fst then d.map Prod.fst
      else d.map Prod.fst ++ [k] := by
  have hany : d.any (fun e => e.1 == k) = true ↔ k ∈ d.map Prod.fst := by
    simp [List.any_eq_true, List.mem_map]
  by_cases hk : k ∈ d.map Prod.fst
  · rw [Dict.set, if_pos (hany.mpr hk), if_pos hk, List.map_map]
    refine List.map_congr_left fun e _ => ?_
    by_cases he : e.1 = k <;> simp [he]
  · rw [Dict.set, if_neg fun h => hk (hany.mp h), if_neg hk, List.map_append]
    rfl

/-- A dictionary has each key once. -/
theorem Dict.set_nodup {d : Dict} (hd : (d.map Prod.fst).Nodup) (k v : Text) :
    ((Dict.set d k v).map Prod.fst).Nodup := by
  rw [Dict.set_keys]
  split
  · exact hd
  · rename_i hk
    exact List.nodup_append.mpr ⟨hd, List.nodup_singleton k, by
      rintro a ha b hb rfl
      exact hk (List.mem_singleton.mp hb ▸ ha)⟩

theorem lookup_of_mem {d : Dict} {k v : Text} (hn : (d.map Prod.fst).Nodup) (h : (k, v) ∈ d) :
    d.lookup k = some v := by
  induction d with
  | nil => exact absurd h (by simp)
  | cons e es ih =>
      rw [List.map_cons, List.nodup_cons] at hn
      rcases List.mem_cons.1 h with rfl | hes
      · exact List.lookup_cons_self
      · have hk : (k == e.1) = false := by
          rw [beq_eq_false_iff_ne]
          intro heq
          exact hn.1 (heq ▸ List.mem_map_of_mem hes)
        rw [List.lookup_cons, hk]
        exact ih hn.2 hes

/-! ## Lookup errors -/

/-- The `ValueError`s of the readers. -/
inductive LookupError where
  | groupNotFound (groupName : Text)
  | scalarNotFound (scalarName groupName : Text)
  deriving DecidableEq, Repr

/-- The text of the error. -/
def LookupError.message : LookupError → Text
  | .groupNotFound groupName => "Group not found in config: ".toList ++ groupName
  | .scalarNotFound scalarName groupName =>
      "Scalar '".toList ++ (scalarName ++ ("' not found in group '".toList ++ (groupName ++ "'".toList)))

/-! ## The readers -/

/-- `find("tag[@name='name']")`: the first of some elements with this tag and name.  The name is quoted in
the path, so it has no apostrophe in it. -/
def findNamed (tag name : Text) (es : List Element) : Option Element :=
  es.find? fun e => decide (e.tag = tag ∧ e.get "name".toList = some name)

/-- `get_scalar` -/
def getScalar (root : Element) (groupName scalarName : Text) : Except LookupError Text :=
  match findNamed "group".toList groupName root.children with
  | none => .error (.groupNotFound groupName)
  | some group =>
      match (findNamed "scalar".toList scalarName group.children).bind Element.text with
      | none => .error (.scalarNotFound scalarName groupName)
      | some text => .ok text

/-- The scalars among some elements, as a dictionary; a missing name or text is empty. -/
def scalarDict (es : List Element) : Dict :=
  (es.filter fun e => decide (e.tag = "scalar".toList)).foldl
    (fun d e => Dict.set d ((e.get "name".toList).getD []) (e.text.getD [])) []

theorem foldl_set_nodup (es : List Element) {d : Dict} (hd : (d.map Prod.fst).Nodup) :
    ((es.foldl (fun d e => Dict.set d ((e.get "name".toList).getD []) (e.text.getD [])) d).map
      Prod.fst).Nodup := by
  induction es generalizing d with
  | nil => exact hd
  | cons e es ih => exact ih (Dict.set_nodup hd _ _)

/-- The names of a group's scalars are distinct keys. -/
theorem scalarDict_nodup (es : List Element) : ((scalarDict es).map Prod.fst).Nodup :=
  foldl_set_nodup _ List.nodup_nil

/-- `get_group_scalars` -/
def getGroupScalars (root : Element) (groupName : Text) (required : Bool) : Except LookupError Dict :=
  match findNamed "group".toList groupName root.children with
  | none => if required then .error (.groupNotFound groupName) else .ok []
  | some group => .ok (scalarDict group.children)

theorem findNamed_some {tag name : Text} {es : List Element} {e : Element}
    (h : findNamed tag name es = some e) :
    e ∈ es ∧ e.tag = tag ∧ e.get "name".toList = some name := by
  unfold findNamed at h
  have hfound := List.find?_some h
  exact ⟨List.mem_of_find?_eq_some h, of_decide_eq_true hfound⟩

theorem getScalar_of_group {root group : Element} {groupName : Text}
    (h : findNamed "group".toList groupName root.children = some group) (scalarName : Text) :
    getScalar root groupName scalarName =
      ((findNamed "scalar".toList scalarName group.children).bind Element.text).elim
        (.error (.scalarNotFound scalarName groupName)) .ok := by
  unfold getScalar
  rw [h]
  show (match (findNamed "scalar".toList scalarName group.children).bind Element.text with
    | none => _
    | some text => _) = _
  cases (findNamed "scalar".toList scalarName group.children).bind Element.text <;> rfl

/-- `get_scalar` answers with the text of the first scalar of the name in the first group of the name. -/
theorem getScalar_ok_iff {root : Element} {groupName scalarName v : Text} :
    getScalar root groupName scalarName = .ok v ↔
      ∃ group e, findNamed "group".toList groupName root.children = some group ∧
        findNamed "scalar".toList scalarName group.children = some e ∧ e.text = some v := by
  cases hgroup : findNamed "group".toList groupName root.children with
  | none =>
      rw [getScalar, hgroup]
      exact ⟨fun h => absurd h (by simp), fun ⟨_, _, h, _⟩ => absurd h (by simp)⟩
  | some group =>
      have hscalar : getScalar root groupName scalarName = .ok v ↔
          (findNamed "scalar".toList scalarName group.children).bind Element.text = some v := by
        rw [getScalar_of_group hgroup]
        cases (findNamed "scalar".toList scalarName group.children).bind Element.text <;> simp
      rw [hscalar, Option.bind_eq_some_iff]
      exact ⟨fun ⟨e, he⟩ => ⟨group, e, rfl, he⟩,
        fun ⟨_, e, h, he⟩ => ⟨e, by rwa [Option.some.inj h]⟩⟩

theorem getGroupScalars_ok_iff {root : Element} {groupName : Text} {d : Dict} :
    getGroupScalars root groupName true = .ok d ↔
      ∃ group, findNamed "group".toList groupName root.children = some group ∧
        scalarDict group.children = d := by
  unfold getGroupScalars
  cases findNamed "group".toList groupName root.children <;> simp

/-- A lookup fails only with an error that names the group asked for. -/
theorem getScalar_error {root : Element} {groupName scalarName : Text} {e : LookupError}
    (h : getScalar root groupName scalarName = .error e) :
    e = .groupNotFound groupName ∨ e = .scalarNotFound scalarName groupName := by
  unfold getScalar at h
  split at h
  · exact Or.inl (Except.error.inj h).symm
  · split at h
    · exact Or.inr (Except.error.inj h).symm
    · exact absurd h (by simp)

/-- An optional group never fails. -/
theorem getGroupScalars_optional (root : Element) (groupName : Text) :
    ∃ d, getGroupScalars root groupName false = .ok d := by
  unfold getGroupScalars
  split
  · exact ⟨[], rfl⟩
  · exact ⟨_, rfl⟩

theorem getGroupScalars_nodup {root : Element} {groupName : Text} {required : Bool} {d : Dict}
    (h : getGroupScalars root groupName required = .ok d) : (d.map Prod.fst).Nodup := by
  unfold getGroupScalars at h
  split at h
  · split at h
    · exact absurd h (by simp)
    · obtain rfl := Except.ok.inj h
      exact List.nodup_nil
  · obtain rfl := Except.ok.inj h
    exact scalarDict_nodup _

end JosfraPge.Config.ScalarReaders
