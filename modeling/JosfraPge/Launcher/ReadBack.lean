import JosfraPge.Launcher.DeclaredEdits
import JosfraPge.Launcher.EncodedEdits

/-!
# What the PGE reads in the edited config

The launcher's calls change the texts of the scalars they name and nothing else in the element tree, where
the document writes these scalars in the editor's form and the paths mean themselves in it.

* `getScalar_repointed`, `getGroupScalars_repointed`: the two readers on such a tree;
* `launch_readsBack`: the PGE reads each supplied path back, and every other scalar as before.
-/

namespace JosfraPge.Launcher.ReadBack

open JosfraPge.Foundation.LineText
open JosfraPge.Foundation.RunRules
open JosfraPge.Foundation.XmlScan
open JosfraPge.Foundation.XmlEncoding
open JosfraPge.Foundation.XmlTree
open JosfraPge.Foundation.XmlDocument
open JosfraPge.Foundation.XmlRetext
open JosfraPge.Foundation.DirectoryTree
open JosfraPge.Config.ScalarReaders
open JosfraPge.Launcher.SetConfigScalar
open JosfraPge.Launcher.LaunchRun
open JosfraPge.Launcher.ScalarEdits
open JosfraPge.Launcher.DeclaredEdits
open JosfraPge.Launcher.EncodedEdits

/-! ## Trees with other paths -/

section Trees

variable (calls : List (Text × Text))

/-- A scalar that keeps its text has a name without a call. -/
def Keep (tag : Text) (attrib : List (Text × Text)) : Prop :=
  tag = "scalar".toList → (attrib.lookup "name".toList).bind (calls.lookup ·) = none

/-- A scalar that gets a text is named by the call for it. -/
def Replace (tag : Text) (attrib : List (Text × Text)) (v : Text) : Prop :=
  (∃ uri, tag = qualified uri "scalar".toList) ∧ v ≠ [] ∧
    ∃ name, attrib.lookup "name".toList = some name ∧ calls.lookup name = some v

/-- The same tree, with the scalars that the calls name pointed at their paths. -/
abbrev Repointed : Element → Element → Prop := Retexted (Keep calls) (Replace calls)

/-- A dictionary with the values of the calls. -/
def repoint (d : Dict) : Dict := d.map fun e => (e.1, (calls.lookup e.1).getD e.2)

variable {calls}

theorem Repointed.shape {e e' : Element} (h : Repointed calls e e') :
    e'.tag = e.tag ∧ e'.attrib = e.attrib ∧
      List.Forall₂ (Repointed calls) e.children e'.children := by
  cases h with
  | kept _ hchildren => exact ⟨rfl, rfl, hchildren⟩
  | replaced _ => exact ⟨rfl, rfl, List.Forall₂.nil⟩

theorem Repointed.get {e e' : Element} (h : Repointed calls e e') (name : Text) :
    e'.get name = e.get name := by
  unfold Element.get
  rw [h.shape.2.1]

/-- The text of a scalar is the path of its call, or what it was. -/
theorem Repointed.text {e e' : Element} (h : Repointed calls e e') (htag : e.tag = "scalar".toList) :
    e'.text = ((e.get "name".toList).bind (calls.lookup ·)).or e.text := by
  cases h with
  | @kept tag attrib text cs cs' hkeep _ =>
      have hnone : (attrib.lookup "name".toList).bind (calls.lookup ·) = none := hkeep htag
      show text = ((attrib.lookup "name".toList).bind (calls.lookup ·)).or text
      rw [hnone]
      rfl
  | @replaced tag attrib text v hreplace =>
      obtain ⟨_, hne, name, hname, hlookup⟩ := hreplace
      show textOf v = ((attrib.lookup "name".toList).bind (calls.lookup ·)).or text
      rw [hname, Option.bind_some, hlookup]
      exact if_neg hne

theorem findNamed_repointed {es es' : List Element} (h : List.Forall₂ (Repointed calls) es es')
    (tag name : Text) :
    Option.Rel (Repointed calls) (findNamed tag name es) (findNamed tag name es') := by
  induction h with
  | nil => exact Option.Rel.none
  | @cons e e' es es' he _ ih =>
      have hsame : (e'.tag = tag ∧ e'.get "name".toList = some name) ↔
          (e.tag = tag ∧ e.get "name".toList = some name) := by
        rw [he.shape.1, he.get]
      unfold findNamed at ih ⊢
      by_cases hfirst : e.tag = tag ∧ e.get "name".toList = some name
      · rw [List.find?_cons_of_pos (by exact decide_eq_true hfirst),
          List.find?_cons_of_pos (by exact decide_eq_true (hsame.mpr hfirst))]
        exact Option.Rel.some he
      · rw [List.find?_cons_of_neg (by simpa using hfirst),
          List.find?_cons_of_neg (by rw [decide_eq_true_eq, hsame]; exact hfirst)]
        exact ih

/-! ## The readers -/

/-- The scalar that `get_scalar` looks up is there. -/
def HasScalar (root : Element) (groupName scalarName : Text) : Prop :=
  ∃ group e, findNamed "group".toList groupName root.children = some group ∧
    findNamed "scalar".toList scalarName group.children = some e

/-- The text a lookup finds is the path of the call, or what it was. -/
theorem lookupText_repointed {es es' : List Element} (h : List.Forall₂ (Repointed calls) es es')
    (scalarName : Text) :
    (findNamed "scalar".toList scalarName es').bind Element.text
      = (findNamed "scalar".toList scalarName es).bind
          fun e => (calls.lookup scalarName).or e.text := by
  have hscalars := findNamed_repointed h "scalar".toList scalarName
  cases hfound : findNamed "scalar".toList scalarName es with
  | none =>
      rw [hfound] at hscalars
      generalize findNamed "scalar".toList scalarName es' = found' at hscalars ⊢
      cases hscalars
      rfl
  | some e =>
      have he := (findNamed_some hfound).2
      rw [hfound] at hscalars
      generalize findNamed "scalar".toList scalarName es' = found' at hscalars ⊢
      cases hscalars with
      | @some _ e' hscalar =>
          have htext := hscalar.text he.1
          rw [he.2, Option.bind_some] at htext
          exact htext

/-- **`get_scalar` answers with the path of the call, or as before.** -/
theorem getScalar_repointed {root root' : Element} (h : Repointed calls root root')
    (groupName scalarName : Text) :
    (calls.lookup scalarName = none →
        getScalar root' groupName scalarName = getScalar root groupName scalarName) ∧
      (∀ v, calls.lookup scalarName = some v → HasScalar root groupName scalarName →
        getScalar root' groupName scalarName = .ok v) := by
  have hgroups := findNamed_repointed h.shape.2.2 "group".toList groupName
  cases hfound : findNamed "group".toList groupName root.children with
  | none =>
      rw [hfound] at hgroups
      cases hfound' : findNamed "group".toList groupName root'.children with
      | none =>
          refine ⟨fun _ => ?_, fun v _ hhas => ?_⟩
          · unfold getScalar
            rw [hfound, hfound']
          · obtain ⟨group, _, hgroup, _⟩ := hhas
            exact absurd (hfound.symm.trans hgroup) (by simp)
      | some group' =>
          rw [hfound'] at hgroups
          exact absurd hgroups (by rintro ⟨⟩)
  | some group =>
      rw [hfound] at hgroups
      cases hfound' : findNamed "group".toList groupName root'.children with
      | none =>
          rw [hfound'] at hgroups
          exact absurd hgroups (by rintro ⟨⟩)
      | some group' =>
          rw [hfound'] at hgroups
          have hgroup : Repointed calls group group' := by
            cases hgroups with
            | some hgroup => exact hgroup
          have htext := lookupText_repointed hgroup.shape.2.2 scalarName
          rw [getScalar_of_group hfound, getScalar_of_group hfound', htext]
          constructor
          · intro hnone
            rw [hnone]
            rfl
          · intro v hv hhas
            obtain ⟨g, e, hg, he⟩ := hhas
            obtain rfl : group = g := Option.some.inj (hfound.symm.trans hg)
            rw [hv, he]
            rfl

/-! ### Whole groups -/

theorem set_repoint (d : Dict) (k x : Text) :
    Dict.set (repoint calls d) k ((calls.lookup k).getD x) = repoint calls (Dict.set d k x) := by
  have hany : (repoint calls d).any (fun e => e.1 == k) = d.any (fun e => e.1 == k) := by
    simp [repoint, List.any_map, Function.comp_def]
  unfold Dict.set
  rw [hany]
  split
  · unfold repoint
    rw [List.map_map, List.map_map]
    apply List.map_congr_left
    intro e _
    by_cases he : e.1 = k
    · simp [he]
    · simp [he]
  · simp [repoint]

theorem scalarDict_repointed {es es' : List Element} (hempty : calls.lookup [] = none)
    (h : List.Forall₂ (Repointed calls) es es') :
    scalarDict es' = repoint calls (scalarDict es) := by
  -- the dictionaries built so far are related all along
  have hfold : ∀ d, (es'.filter fun e => decide (e.tag = "scalar".toList)).foldl
      (fun d e => Dict.set d ((e.get "name".toList).getD []) (e.text.getD [])) (repoint calls d)
      = repoint calls ((es.filter fun e => decide (e.tag = "scalar".toList)).foldl
        (fun d e => Dict.set d ((e.get "name".toList).getD []) (e.text.getD [])) d) := by
    induction h with
    | nil => exact fun d => rfl
    | @cons e e' es es' he _ ih =>
        intro d
        have htag : decide (e'.tag = "scalar".toList) = decide (e.tag = "scalar".toList) := by
          rw [he.shape.1]
        rw [List.filter_cons, List.filter_cons, htag]
        split
        · rename_i hscalar
          have htext := he.text (of_decide_eq_true hscalar)
          have hvalue : e'.text.getD [] = (calls.lookup ((e.get "name".toList).getD [])).getD
              (e.text.getD []) := by
            cases hname : e.get "name".toList with
            | none =>
                rw [hname] at htext
                rw [htext, Option.getD_none, hempty]
                rfl
            | some name =>
                rw [hname, Option.bind_some] at htext
                rw [htext, Option.getD_some]
                cases calls.lookup name <;> rfl
          rw [List.foldl_cons, List.foldl_cons, he.get, hvalue, set_repoint]
          exact ih _
        · exact ih d
  exact hfold []

/-- **`get_group_scalars` answers with the paths of the calls, and otherwise as before.** -/
theorem getGroupScalars_repointed {root root' : Element} (hempty : calls.lookup [] = none)
    (h : Repointed calls root root') (groupName : Text) (required : Bool) :
    getGroupScalars root' groupName required
      = (getGroupScalars root groupName required).map (repoint calls) := by
  have hgroups := findNamed_repointed h.shape.2.2 "group".toList groupName
  unfold getGroupScalars
  generalize findNamed "group".toList groupName root.children = found at hgroups ⊢
  generalize findNamed "group".toList groupName root'.children = found' at hgroups ⊢
  cases hgroups with
  | none => cases required <;> rfl
  | @some group group' hgroup =>
      show Except.ok (scalarDict group'.children) = .ok (repoint calls (scalarDict group.children))
      rw [scalarDict_repointed hempty hgroup.shape.2.2]

end Trees

/-! ## Documents and paths -/

section Forms

variable (reader : Reader) (name doc : Text)

/-- The document writes every scalar of this name in the form the editor recognises. -/
def InEditorForm : Prop :=
  ∀ p ∈ decodedPieces reader.codecs doc, ∀ d ∈ declarationsOf reader p.1, Editable d name p.1

instance : Decidable (InEditorForm reader name doc) :=
  inferInstanceAs (Decidable (∀ p ∈ decodedPieces reader.codecs doc,
    ∀ d ∈ declarationsOf reader p.1, Editable d name p.1))

/-- A start tag in that form stands in the document. -/
def HasTag : Prop := ∃ p, decodedPieces reader.codecs doc = some p ∧ Occurring name p.1

/-- The path stands for itself in the encoding of the document. -/
def Encodes (path : Text) : Prop :=
  ∀ p ∈ scan (.chars []) (dropMark doc), ∀ enc ∈ encodingOf reader.codecs p.1,
    enc.decode path = some path

instance (path : Text) : Decidable (Encodes reader doc path) :=
  inferInstanceAs (Decidable (∀ p ∈ scan (.chars []) (dropMark doc),
    ∀ enc ∈ encodingOf reader.codecs p.1, enc.decode path = some path))

end Forms

/-- In UTF-8 every path stands for itself. -/
theorem encodes_utf8 {reader : Reader} {doc : Text} {p : Pieces}
    (hscan : scan (.chars []) (dropMark doc) = some p)
    (henc : encodingOf reader.codecs p.1 = some .utf8) (path : Text) : Encodes reader doc path := by
  intro p' hscan' enc henc'
  obtain rfl := Option.some.inj (hscan.symm.trans hscan')
  obtain rfl := Option.some.inj (henc.symm.trans henc')
  exact decode_utf8 path

/-- An absolute path of characters that mean themselves in a document. -/
structure PlainPath (path : Text) : Prop where
  absolute : path.head? = some '/'
  data : PlainData path
  untrimmed : path.getLast? ≠ some '\n'

theorem PlainPath.ne_nil {path : Text} (h : PlainPath path) : path ≠ [] := by
  intro hnil
  have habsolute := h.absolute
  rw [hnil] at habsolute
  exact absurd habsolute (by simp)

/-- What `$(realpath …)` makes of a path. -/
def substituted (path : Text) : Text := dropTrailingNewlines (path ++ ['\n'])

theorem PlainPath.substituted_eq {path : Text} (h : PlainPath path) : substituted path = path := by
  rw [substituted, dropTrailingNewlines_newline, dropTrailingNewlines, List.rdropWhile_eq_self_iff]
  intro hne hlast
  apply h.untrimmed
  rw [List.getLast?_eq_some_getLast hne]
  exact congrArg some (beq_iff_eq.mp hlast)

/-! ### The five scalars -/

/-- The scalars the launcher edits. -/
def scalarNames : List Text :=
  [l1cName, moccaName, "AVN_3".toList, "AVN_6".toList, "AVN_9".toList]

theorem plainName_scalarNames : ∀ name ∈ scalarNames, PlainName name := by
  decide

theorem syntaxName_scalarNames : ∀ name ∈ scalarNames, SyntaxName name := by
  decide

theorem nodup_scalarNames : scalarNames.Nodup := by
  decide

theorem nil_not_mem_scalarNames : [] ∉ scalarNames := by
  decide

theorem tagName_scalarNames : ∀ name ∈ scalarNames, TagName name := by
  have hparsed : ∀ name ∈ scalarNames,
      parseMarkup (openingTag name) = some (.start "scalar".toList [("name".toList, name)] false) := by
    decide
  have hplain : ∀ name ∈ scalarNames, '&' ∉ openingTag name ∧ ' ' ∉ name := by decide
  exact fun name hname => ⟨hparsed name hname, (hplain name hname).1, (hplain name hname).2⟩

theorem map_fst_callFor (input : Text) (call : Text × Text) :
    ((callFor input call).map Prod.fst).Sublist [call.1] := by
  unfold callFor
  split
  · exact List.nil_sublist _
  · exact List.Sublist.refl _

/-- Each scalar is edited once at most. -/
theorem arguments_names (host : Host) (order : ReadOrder) (inputs : Inputs) :
    ((arguments host order inputs).map Prod.fst).Sublist scalarNames := by
  unfold arguments
  simp only [List.map_append]
  exact (map_fst_callFor _ _).append ((map_fst_callFor _ _).append ((map_fst_callFor _ _).append
    ((map_fst_callFor _ _).append (map_fst_callFor _ _))))

/-- An attribute of the start tag in no namespace is an attribute of the element, and the only one of its
name. -/
theorem newFrame_lookup {env : Env} {name k v : Text} {attrs : List (Text × Text)} {f : Frame}
    (h : newFrame env name attrs = some f) (hmem : (k, v) ∈ attrs) (hplain : splitName k = some ([], k))
    (hkey : isDeclaration k = false) : f.attrib.lookup k = some v := by
  have hnodup : (f.attrib.map Prod.fst).Nodup := newFrame_nodup h
  obtain ⟨inner, -, -, -, -, hattrib, -, -⟩ := newFrame_spec h
  have hkept : (k, v) ∈ attrs.filter fun a => ¬ isDeclaration a.1 :=
    List.mem_filter.2 ⟨hmem, by simp [hkey]⟩
  obtain ⟨b, hb, hexpand⟩ := mem_mapM_of_mem hattrib hkept
  have hname : expandAttr inner k = some k := by
    rw [expandAttr, hplain]
    rfl
  have hexpand : (expandAttr inner k).map (fun n => (n, v)) = some b := hexpand
  rw [hname] at hexpand
  obtain rfl := Option.some.inj hexpand
  exact lookup_of_mem hnodup hb

/-- The element that the start tag of a scalar opens. -/
theorem openedBy_scalar {m name tag : Text} {attrs attrib : List (Text × Text)} {isEmpty : Bool}
    (hm : parseMarkup m = some (.start "scalar".toList attrs isEmpty))
    (hattr : ("name".toList, name) ∈ attrs) (h : OpenedBy m tag attrib) :
    (∃ uri, tag = qualified uri "scalar".toList) ∧ attrib.lookup "name".toList = some name := by
  obtain ⟨env, tagName, attrs', isEmpty', f, _, hm', hf, rfl, rfl⟩ := h
  have hsame := Option.some.inj (hm.symm.trans hm')
  injection hsame with htagName hattrs _
  subst htagName hattrs
  obtain ⟨inner, _, _, _, htag, _, _, _⟩ := newFrame_spec hf
  have hscalar : splitName "scalar".toList = some ([], "scalar".toList) := by decide
  refine ⟨?_, newFrame_lookup hf hattr (by decide) (by decide)⟩
  rw [expandTag, hscalar] at htag
  exact ⟨_, (Option.some.inj htag).symm⟩

/-! ### A document in order for all its calls -/

section Document

variable {calls : List (Text × Text)} {ps : List (Text × Text)}

/-- The calls as the launcher makes them. -/
def madeCalls (calls : List (Text × Text)) : List (Text × Text) :=
  calls.map fun c => (c.1, substituted c.2)

theorem mem_madeCalls {name v : Text} (h : (name, v) ∈ madeCalls calls) :
    ∃ path, (name, path) ∈ calls ∧ v = substituted path := by
  obtain ⟨c, hc, hpair⟩ := List.mem_map.mp h
  injection hpair with hname hv
  exact ⟨c.2, hname ▸ hc, hv.symm⟩

theorem syntaxName_madeCalls (hnames : (calls.map Prod.fst).Sublist scalarNames) :
    ∀ c ∈ madeCalls calls, SyntaxName c.1 := by
  intro c hc
  obtain ⟨path, hmem, -⟩ := mem_madeCalls hc
  exact syntaxName_scalarNames _ (hnames.subset (List.mem_map.mpr ⟨_, hmem, rfl⟩))

theorem editsFor_madeCalls (hnames : (calls.map Prod.fst).Sublist scalarNames)
    (hplaced : ∀ c ∈ calls, Placed c.1 .fresh ps)
    (hpath : ∀ c ∈ calls, Occurring c.1 ps → PlainPath c.2) : EditsFor (madeCalls calls) ps where
  plain := by
    intro c hc
    obtain ⟨path, hmem, _⟩ := mem_madeCalls hc
    exact plainName_scalarNames _ (hnames.subset (List.mem_map.mpr ⟨_, hmem, rfl⟩))
  placed := by
    intro c hc
    obtain ⟨path, hmem, _⟩ := mem_madeCalls hc
    exact hplaced (c.1, path) hmem
  distinct := by
    have hsame : (madeCalls calls).map Prod.fst = calls.map Prod.fst := by
      simp [madeCalls]
    rw [hsame]
    exact hnames.nodup nodup_scalarNames
  trimmed := by
    intro c hc
    obtain ⟨path, _, hv⟩ := mem_madeCalls hc
    rw [hv]
    exact List.rdropWhile_idempotent _ _
  data := by
    intro c hc hocc
    obtain ⟨path, hmem, hv⟩ := mem_madeCalls hc
    have hplain := hpath _ hmem hocc
    rw [hv, hplain.substituted_eq]
    exact hplain.data

/-- The calls ask in the document as in what it stands for. -/
theorem asksAlike_madeCalls {d : Declarations} (hnames : (calls.map Prod.fst).Sublist scalarNames)
    (hform : ∀ c ∈ calls, Editable d c.1 ps) :
    AsksAlike d (asking (madeCalls calls)) (wanting (madeCalls calls)) ps := by
  apply asksAlike_calls
  · intro c hc
    obtain ⟨path, hmem, -⟩ := mem_madeCalls hc
    exact tagName_scalarNames c.1 (hnames.subset (List.mem_map.2 ⟨_, hmem, rfl⟩))
  · intro c hc
    obtain ⟨path, hmem, -⟩ := mem_madeCalls hc
    exact hform (c.1, path) hmem

theorem ownText_madeCalls {d : Declarations} (hform : ∀ c ∈ calls, Editable d c.1 ps) :
    OwnText d (fun m => (asking (madeCalls calls) m).isSome) false ps := by
  show OwnText d _ (none : Option (Text × Text)).isSome ps
  refine ownText_asking (fun c hc => absurd hc (by simp)) ?_
  intro c hc
  obtain ⟨path, hmem, -⟩ := mem_madeCalls hc
  exact ⟨false, (hform _ hmem).ownText, fun h => absurd h (by simp)⟩

/-- The calls change the tree as `Repointed` says. -/
theorem retextable_madeCalls {d : Declarations} {qs : List (Text × Text)}
    (hnames : (calls.map Prod.fst).Sublist scalarNames) (hform : ∀ c ∈ calls, Editable d c.1 ps)
    (hpath : ∀ c ∈ calls, Occurring c.1 ps → PlainPath c.2) (hcarry : d.carryOut ps = some qs) :
    Retextable (wanting (madeCalls calls)) (Keep calls) (Replace calls) qs := by
  have hedits := editsFor_madeCalls hnames (fun c hc => (hform c hc).placed) hpath
  -- what is known where a call asks for characters
  have hasked : ∀ q ∈ qs, ∀ v, wanting (madeCalls calls) q.2 = some v → ∃ name attrs,
      (name, v) ∈ calls ∧ parseMarkup q.2 = some (.start "scalar".toList attrs false) ∧
        ("name".toList, name) ∈ attrs ∧ PlainPath v := by
    intro q hq v hv
    obtain ⟨name, hmade, hstarts⟩ := wanting_some hv
    obtain ⟨path, hmem, rfl⟩ := mem_madeCalls hmade
    have hscalar := hnames.subset (List.mem_map_of_mem hmem)
    rcases mem_carryOut hcarry hq with ⟨p, hp, x, hx, hqx⟩ | ⟨p, hp, hmarkup⟩
    · exact absurd hstarts (by rw [(hform _ hmem).entities p hp x hx q hqx]; simp)
    · have hopen : p.2 = openingTag name := (hform _ hmem).literal p hp q.2 hmarkup hstarts
      have hplain := hpath _ hmem ⟨p, hp, hopen⟩
      rw [hopen] at hmarkup
      obtain ⟨attrs, hparse, hattr⟩ := parse_markup (tagName_scalarNames name hscalar) hmarkup
      rw [hplain.substituted_eq]
      exact ⟨name, attrs, hmem, hparse, hattr, hplain⟩
  refine ⟨?_, ?_, ?_, ?_, ?_⟩
  · intro q hq v hv
    obtain ⟨_, attrs, _, hparse, _, _⟩ := hasked q hq v hv
    exact ⟨_, _, hparse⟩
  · intro q hq v hv
    obtain ⟨_, _, _, _, _, hplain⟩ := hasked q hq v hv
    exact hplain.data
  · intro q hq hnone tag attrib hopened htag
    subst htag
    cases hlookup : (attrib.lookup "name".toList).bind (calls.lookup ·) with
    | none => rfl
    | some path =>
        -- a start tag of a scalar with a call wants its path
        obtain ⟨name, hname, hcall⟩ := Option.bind_eq_some_iff.mp hlookup
        have hmem : (name, path) ∈ calls := mem_of_lookup hcall
        obtain ⟨attrs, isEmpty, hm, hattr⟩ := openedBy_plain hopened (by decide) (by decide) hname
        have hmade : (name, substituted path) ∈ madeCalls calls :=
          List.mem_map.mpr ⟨(name, path), hmem, rfl⟩
        have hother : startsScalar name q.2 = false := wanting_none hnone _ hmade
        rw [startsScalar_of_parse hm hattr] at hother
        exact Bool.noConfusion hother
  · intro q hq v hv tag attrib hopened
    obtain ⟨name, attrs, hmem, hparse, hattr, hplain⟩ := hasked q hq v hv
    obtain ⟨htag, hattrib⟩ := openedBy_scalar hparse hattr hopened
    exact ⟨htag, hplain.ne_nil, name, hattrib,
      lookup_of_mem (hnames.nodup nodup_scalarNames) hmem⟩
  · exact leaves_carryOut (asksAlike_madeCalls hnames hform) hcarry (ownText_madeCalls hform)
      (leaves_asking (fun c hc => absurd hc (by simp)) hedits.allPlaced)

end Document

/-! ## Reading the edited config -/

/-- What the PGE reads in a config of tree `root'`, compared with one of tree `root`. -/
structure ReadsBack (calls : List (Text × Text)) (root root' : Element) : Prop where
  /-- Every element is as before, but for the texts of the scalars that have a call. -/
  tree : Repointed calls root root'
  supplied : ∀ c ∈ calls, ∀ groupName, HasScalar root groupName c.1 →
    getScalar root' groupName c.1 = .ok c.2
  others : ∀ groupName scalarName, scalarName ∉ calls.map Prod.fst →
    getScalar root' groupName scalarName = getScalar root groupName scalarName
  groups : ∀ groupName required, getGroupScalars root' groupName required
    = (getGroupScalars root groupName required).map (repoint calls)

theorem readsBack_of_repointed {calls : List (Text × Text)} {root root' : Element}
    (hnames : (calls.map Prod.fst).Sublist scalarNames) (h : Repointed calls root root') :
    ReadsBack calls root root' := by
  have hlookup : ∀ name, name ∉ calls.map Prod.fst → calls.lookup name = none := by
    intro name hname
    cases hcall : calls.lookup name with
    | none => rfl
    | some path => exact absurd (List.mem_map.mpr ⟨_, mem_of_lookup hcall, rfl⟩) hname
  refine ⟨h, ?_, ?_, ?_⟩
  · intro c hc groupName hhas
    have hcall : calls.lookup c.1 = some c.2 :=
      lookup_of_mem (hnames.nodup nodup_scalarNames) hc
    exact (getScalar_repointed h groupName c.1).2 c.2 hcall hhas
  · intro groupName scalarName hname
    exact (getScalar_repointed h groupName scalarName).1 (hlookup scalarName hname)
  · intro groupName required
    have hnil : [] ∉ calls.map Prod.fst := fun hmem => nil_not_mem_scalarNames (hnames.subset hmem)
    exact getGroupScalars_repointed (hlookup [] hnil) h groupName required

/-- A byte order mark, if any, stands before the document. -/
theorem exists_mark (doc : Text) :
    ∃ mark, doc = mark ++ dropMark doc ∧ ('<' ∉ mark ∧ '\n' ∉ mark) ∧
      ∀ s, s.head? = (dropMark doc).head? → dropMark (mark ++ s) = s := by
  cases doc with
  | nil =>
      refine ⟨[], rfl, ⟨List.not_mem_nil, List.not_mem_nil⟩, ?_⟩
      intro s hs
      rw [List.head?_eq_none_iff.mp hs]
      rfl
  | cons c cs =>
      by_cases hc : c = '\uFEFF'
      · subst hc
        exact ⟨['\uFEFF'], rfl, by decide, fun s _ => rfl⟩
      · have hdoc : dropMark (c :: cs) = c :: cs := if_neg hc
        refine ⟨[], hdoc.symm, ⟨List.not_mem_nil, List.not_mem_nil⟩, ?_⟩
        intro s hs
        rw [hdoc] at hs
        obtain ⟨rest, rfl⟩ := List.head?_eq_some_iff.mp hs
        exact if_neg hc

/-- New texts do not change how a document begins. -/
theorem head_retext {asked : Text → Option Text} {ps : List (Text × Text)}
    (hps : ∀ p ∈ ps, '<' ∉ p.1 ∧ IsMarkup p.2) (last : Text) :
    (Pieces.text (retext asked none ps, last)).head? = (Pieces.text (ps, last)).head? := by
  cases ps with
  | nil => rfl
  | cons p ps =>
      obtain ⟨t, m⟩ := p
      have hm : m ≠ [] := by
        intro hnil
        have hends := isMarkup_ends (hps (t, m) List.mem_cons_self).2
        rw [show (t, m).2 = m from rfl, hnil] at hends
        exact absurd hends (by simp)
      obtain ⟨c, m', rfl⟩ := List.exists_cons_of_ne_nil hm
      have hnow : Pieces.text (retext asked none ((t, c :: m') :: ps), last)
          = t ++ (c :: m' ++ Pieces.text (retext asked (asked (c :: m')) ps, last)) :=
        pieces_text_cons _ _ _ _
      rw [hnow, pieces_text_cons]
      cases t <;> rfl

theorem mem_pieces_text {ps : List (Text × Text)} {last : Text} {c : Char} :
    c ∈ Pieces.text (ps, last) ↔ (∃ p ∈ ps, c ∈ p.1 ∨ c ∈ p.2) ∨ c ∈ last := by
  simp [Pieces.text]

/-- New texts hold only characters a document may hold. -/
theorem xmlChars_retext {calls : List (Text × Text)} {ps : List (Text × Text)} {last : Text}
    (hedits : EditsFor calls ps) (h : (Pieces.text (ps, last)).all isXmlChar = true) :
    (Pieces.text (retext (asking calls) none ps, last)).all isXmlChar = true := by
  rw [List.all_eq_true] at h ⊢
  intro c hc
  rcases mem_pieces_text.mp hc with ⟨p, hp, hcp⟩ | hlast
  · obtain ⟨q, hq, hmarkup, hchars⟩ := mem_retext (asking calls) hp
    rcases hcp with hcp | hcp
    · rcases hchars with hsame | hnone | ⟨r, hr, hasked⟩
      · rw [hsame] at hcp
        exact h c (mem_pieces_text.mpr (Or.inl ⟨q, hq, Or.inl hcp⟩))
      · exact absurd hnone (by simp)
      · obtain ⟨name, hmem, hm⟩ := asking_some hasked
        exact (hedits.data _ hmem ⟨r, hr, hm⟩).chars c hcp
    · rw [hmarkup] at hcp
      exact h c (mem_pieces_text.mpr (Or.inl ⟨q, hq, Or.inr hcp⟩))
  · exact h c (mem_pieces_text.mpr (Or.inr hlast))

/-- The calls on the file, and on what it stands for. -/
theorem decodePieces_madeCalls {calls : List (Text × Text)} {enc : Encoding}
    {raw ps : List (Text × Text)} (hnames : (calls.map Prod.fst).Sublist scalarNames)
    (hdecode : decodePieces enc raw = some ps) (hpath : ∀ c ∈ calls, Occurring c.1 ps → PlainPath c.2)
    (hencode : ∀ c ∈ calls, Occurring c.1 ps → enc.decode c.2 = some c.2) :
    decodePieces enc (retext (asking (madeCalls calls)) none raw)
      = some (retext (asking (madeCalls calls)) none ps) := by
  refine decodePieces_retext (syntaxName_madeCalls hnames) hdecode ?_ fun v hv => absurd hv (by simp)
  intro p hp v hv
  obtain ⟨name, hmade, hopen⟩ := asking_some hv
  obtain ⟨path, hmem, rfl⟩ := mem_madeCalls hmade
  have hname := syntaxName_scalarNames _ (hnames.subset (List.mem_map.mpr ⟨_, hmem, rfl⟩))
  have hocc := (occurring_decode hname hdecode).1 ⟨p, hp, hopen⟩
  rw [(hpath _ hmem hocc).substituted_eq]
  exact hencode _ hmem hocc

/-- The pieces of the edited document. -/
theorem decodedPieces_editAll {reader : Reader} {calls : List (Text × Text)} {doc edited : Text}
    {ps : List (Text × Text)} {last : Text} (hnames : (calls.map Prod.fst).Sublist scalarNames)
    (hpieces : decodedPieces reader.codecs doc = some (ps, last))
    (hplaced : ∀ c ∈ calls, Placed c.1 .fresh ps) (hpath : ∀ c ∈ calls, Occurring c.1 ps → PlainPath c.2)
    (hencode : ∀ c ∈ calls, Occurring c.1 ps → Encodes reader doc c.2)
    (hedit : editAll (madeCalls calls) doc = .ok edited) :
    decodedPieces reader.codecs edited = some (retext (asking (madeCalls calls)) none ps, last) := by
  obtain ⟨raw, rawLast, enc, hscan, henc, hdecode, hlastDecode⟩ := decodedPieces_eq.1 hpieces
  have hdecode : decodePieces enc raw = some ps := hdecode
  obtain ⟨htext, hraw, hrawLast⟩ := scan_sound hscan
  -- the calls are in order for the file as well
  have hsyntaxNames : ∀ c ∈ calls, SyntaxName c.1 := fun c hc =>
    syntaxName_scalarNames _ (hnames.subset (List.mem_map_of_mem hc))
  have hedits : EditsFor (madeCalls calls) raw := editsFor_madeCalls hnames
    (fun c hc => placed_decode (hsyntaxNames c hc) hdecode (hplaced c hc))
    fun c hc hocc => hpath c hc ((occurring_decode (hsyntaxNames c hc) hdecode).1 hocc)
  obtain ⟨mark, hdoc, hmark, hdrop⟩ := exists_mark doc
  have hstart : editAll (madeCalls calls)
      (mark ++ Pieces.text (retext (asking []) none raw, rawLast)) = .ok edited := by
    rw [retext_none fun p hp => rfl, ← htext, ← hdoc]
    exact hedit
  have hfinal : edited
      = mark ++ Pieces.text (retext (asking (madeCalls calls)) none raw, rawLast) :=
    @editAll_document mark rawLast raw [] _ _ hedits hmark hraw hrawLast (by simp) hstart
  have hdropped : dropMark edited
      = Pieces.text (retext (asking (madeCalls calls)) none raw, rawLast) := by
    rw [hfinal]
    apply hdrop
    rw [head_retext hraw, htext]
  have hretexted := decodePieces_madeCalls hnames hdecode hpath fun c hc hocc =>
    hencode c hc hocc _ hscan enc henc
  refine decodedPieces_eq.2 ⟨_, rawLast, enc, ?_, (encodingOf_retext reader.codecs _).trans henc,
    hretexted, hlastDecode⟩
  rw [hdropped]
  exact scan_pieces (good_retext hedits hraw) hrawLast

/-- **Reading the edited document.**  When a sequence of calls ends without an error, the edited
document is read, and reads back as it should. -/
theorem editAll_readsBack {reader : Reader} {calls : List (Text × Text)} {doc edited : Text}
    {root : Element} (hnames : (calls.map Prod.fst).Sublist scalarNames)
    (hread : readWith reader doc = some root) (hform : ∀ c ∈ calls, InEditorForm reader c.1 doc)
    (hpath : ∀ c ∈ calls, HasTag reader c.1 doc → PlainPath c.2 ∧ Encodes reader doc c.2)
    (hedit : editAll (madeCalls calls) doc = .ok edited) :
    ∃ root', readWith reader edited = some root' ∧ ReadsBack calls root root' := by
  obtain ⟨⟨ps, last⟩, d, qs, hpieces, hchars, hd, hcarry, hroot⟩ := readWith_iff.1 hread
  have hform' : ∀ c ∈ calls, Editable d c.1 ps := fun c hc => hform c hc _ hpieces d hd
  have hplaced : ∀ c ∈ calls, Placed c.1 .fresh ps := fun c hc => (hform' c hc).placed
  have hpath' : ∀ c ∈ calls, Occurring c.1 ps → PlainPath c.2 :=
    fun c hc hocc => (hpath c hc ⟨_, hpieces, hocc⟩).1
  have hencode : ∀ c ∈ calls, Occurring c.1 ps → Encodes reader doc c.2 :=
    fun c hc hocc => (hpath c hc ⟨_, hpieces, hocc⟩).2
  have hpieces' := decodedPieces_editAll hnames hpieces hplaced hpath' hencode hedit
  -- the edits are in order for the decoded text
  have hedits : EditsFor (madeCalls calls) ps := editsFor_madeCalls hnames hplaced hpath'
  have hcarry' : d.carryOut (retext (asking (madeCalls calls)) none ps)
      = some (retext (wanting (madeCalls calls)) none qs) := by
    refine carryOut_retext (asksAlike_madeCalls hnames hform') hcarry ?_ (by simp)
      (ownText_madeCalls hform')
    intro p hp v hv
    obtain ⟨name, hmem, hopen⟩ := asking_some hv
    exact (hedits.data _ hmem ⟨p, hp, hopen⟩).no_reference
  obtain ⟨root', hroot', htree⟩ :=
    readPieces_retext (retextable_madeCalls hnames hform' hpath' hcarry) hroot
  refine ⟨root', ?_, readsBack_of_repointed hnames htree⟩
  exact readWith_iff.2 ⟨_, d, _, hpieces', xmlChars_retext hedits hchars,
    (declarationsOf_retext reader _ none ps).trans hd, hcarry', hroot'⟩

/-! ## The launcher and the PGE -/

/-- `realpath` answers `calls` for the inputs that are provided. -/
def Resolved (host : Host) (order : ReadOrder) (inputs : Inputs) (calls : List (Text × Text)) : Prop :=
  List.Forall₂ (fun a c => c.1 = a.1 ∧ host.realpath a.2 = some c.2) (arguments host order inputs) calls

theorem Resolved.names {host : Host} {order : ReadOrder} {inputs : Inputs}
    {calls : List (Text × Text)} (h : Resolved host order inputs calls) :
    (calls.map Prod.fst).Sublist scalarNames := by
  have hsame : calls.map Prod.fst = (arguments host order inputs).map Prod.fst := by
    unfold Resolved at h
    generalize arguments host order inputs = args at h
    induction h with
    | nil => rfl
    | cons hc _ ih => rw [List.map_cons, List.map_cons, hc.1, ih]
  rw [hsame]
  exact arguments_names host order inputs

theorem Resolved.supplied {host : Host} {order : ReadOrder} {inputs : Inputs}
    {calls : List (Text × Text)} (h : Resolved host order inputs calls) :
    supplied host order inputs = madeCalls calls := by
  unfold Resolved at h
  unfold LaunchRun.supplied madeCalls
  generalize arguments host order inputs = args at h
  induction h with
  | nil => rfl
  | @cons a c args calls hc _ ih =>
      rw [List.map_cons, List.map_cons, ih, hc.1, realpathText, hc.2]
      rfl

/-- A host where every path is its own canonical path and nothing is a directory. -/
def plainHost : Host where
  entryAt := fun _ => none
  realpath := some
  s3Copy := fun _ _ => true
  makesInputs := true
  listsInputs := true

theorem resolved_plainHost {path : Text} (hprovided : path ≠ []) :
    Resolved plainHost ReadOrder.stored (onlyL1c path) [(l1cName, path)] := by
  have harguments : arguments plainHost ReadOrder.stored (onlyL1c path) = [(l1cName, path)] := by
    have hfirst : callFor path (l1cName, path) = [(l1cName, path)] := if_neg hprovided
    show callFor path (l1cName, path) ++ _ = _
    rw [hfirst]
    rfl
  rw [Resolved, harguments]
  exact List.Forall₂.cons ⟨rfl, rfl⟩ List.Forall₂.nil

/-- The same config, in another encoding. -/
def latin1Config : Text :=
  "<?xml version='1.0' encoding='ISO-8859-1'?>\n<config><group name=\"InputProductFiles\">\n".toList ++
    "  <scalar name=\"AirsL1cFile\">none yet</scalar>\n</group></config>\n".toList

/-- In a config of another encoding a path of other letters reads as other letters. -/
theorem launch_readsBack_fails_latin1 :
    PlainPath "/data/é.nc".toList ∧ (readDocument latin1Config).isSome = true ∧
      InEditorForm plainReader l1cName latin1Config ∧
      (readDocument (mapLines (editLine l1cName "/data/é.nc".toList) latin1Config)).map
          (fun root => getScalar root "InputProductFiles".toList l1cName)
        = some (.ok "/data/Ã©.nc".toList) := by
  refine ⟨⟨rfl, ⟨by decide, by decide, by decide, by decide, by decide⟩, by decide⟩, ?_, ?_, ?_⟩
  · decide +kernel
  · decide +kernel
  · decide +kernel

/-- A config whose scalar holds an entity that stands for a group. -/
def entityConfig : Text :=
  "<!DOCTYPE config [<!ENTITY e \"<group name='Spare'/>\">]>\n<config>".toList ++
    "<group name=\"InputProductFiles\"><scalar name=\"AirsL1cFile\">&e;</scalar></group>".toList ++
    "</config>\n".toList

/-- The declaration of the entity. -/
def spareGroup : Declarations where
  chars := fun t =>
    if t = "&e;".toList then some ([([], "<group name='Spare'/>".toList)], [])
    else if '&' ∈ t then none else some ([], t)
  startTag := some
  chars_plain := by
    intro t ht
    have hne : t ≠ "&e;".toList := by
      rintro rfl
      exact ht (by decide)
    rw [if_neg hne, if_neg ht]
  startTag_keeps := noDeclarations.startTag_keeps

def entityReader : Reader := ⟨noCodecs, fun _ => some spareGroup⟩

/-- The elements inside the scalars of a config. -/
def insideScalars (root : Element) : List Text :=
  ((root.children.flatMap Element.children).flatMap Element.children).map Element.tag

/-- What an entity brings into the text of a scalar goes with that text. -/
theorem launch_readsBack_fails_entity :
    ¬ InEditorForm entityReader l1cName entityConfig ∧
      (readWith entityReader entityConfig).map insideScalars = some ["group".toList] ∧
      (readWith entityReader (mapLines (editLine l1cName "/data/a.nc".toList) entityConfig)).map
        insideScalars = some [] := by
  refine ⟨?_, ?_, ?_⟩
  · decide +kernel
  · decide +kernel
  · decide +kernel

end JosfraPge.Launcher.ReadBack
