import JosfraPge.Foundation.XmlTree

/-!
# XML 1.0, new text for some leaves

A document is changed by writing other characters behind some of its start tags, each of them closed
at once.  `retext` does this on the pieces of a document, `Retexted` says what becomes of the tree.

* `openedBy_plain`: an element without namespaces names itself and its attributes in its start tag;
* `build_retext`: the builder takes the changed pieces from related states to related states;
* `readPieces_retext`: a changed document is read, as the same tree with the new texts.
-/

namespace JosfraPge.Foundation.XmlRetext

open JosfraPge.Foundation.LineText
open JosfraPge.Foundation.XmlScan
open JosfraPge.Foundation.RunRules
open JosfraPge.Foundation.XmlTree

/-! ## Names without a namespace -/

/-- Only the default prefix may be bound to no namespace. -/
def GoodEnv (env : Env) : Prop := ∀ b ∈ env, b.2 = [] → b.1 = []

theorem goodEnv_initial : GoodEnv initialEnv := by
  intro b hb hempty
  rw [initialEnv, List.mem_singleton] at hb
  rw [hb] at hempty
  exact absurd hempty (by decide)

theorem goodEnv_declare {env env' : Env} {a : Text × Text} (henv : GoodEnv env)
    (h : declare env a = some env') : GoodEnv env' := by
  unfold declare at h
  split at h
  · split at h
    · exact absurd h (by simp)
    · obtain rfl := Option.some.inj h
      intro b hb hempty
      rcases List.mem_cons.mp hb with rfl | hb
      · rfl
      · exact henv b hb hempty
  · obtain ⟨n, hn, h⟩ := Option.bind_eq_some_iff.mp h
    split at h
    · split at h
      · exact absurd h (by simp)
      · rename_i hok
        obtain rfl := Option.some.inj h
        intro b hb hempty
        rcases List.mem_cons.mp hb with rfl | hb
        · exact absurd hempty fun he => hok (Or.inr (Or.inl he))
        · exact henv b hb hempty
    · obtain rfl := Option.some.inj h
      exact henv

theorem goodEnv_foldlM {attrs : List (Text × Text)} {env inner : Env} (henv : GoodEnv env)
    (h : attrs.foldlM declare env = some inner) : GoodEnv inner := by
  induction attrs generalizing env with
  | nil =>
      obtain rfl := Option.some.inj h
      exact henv
  | cons a attrs ih =>
      rw [List.foldlM_cons] at h
      obtain ⟨env', henv', h⟩ := Option.bind_eq_some_iff.mp h
      exact ih (goodEnv_declare henv henv') h

theorem mem_of_lookup {bindings : List (Text × Text)} {k x : Text}
    (h : bindings.lookup k = some x) : (k, x) ∈ bindings := by
  obtain ⟨before, after, hsplit, _⟩ := List.lookup_eq_some_iff.mp h
  rw [hsplit]
  exact List.mem_append_right before List.mem_cons_self

/-- A name without prefix is its own local part. -/
theorem splitName_plain {name localPart : Text} (h : splitName name = some ([], localPart)) :
    name = localPart := by
  unfold splitName at h
  split at h
  · injection h with h
    injection h
  · split at h
    · rename_i hprefix
      injection h with h
      injection h with hnil _
      exact absurd hnil hprefix.1
    · exact absurd h (by simp)

theorem qualified_plain {uri localPart w : Text} (hw : w.head? ≠ some '{')
    (h : qualified uri localPart = w) : uri = [] ∧ localPart = w := by
  unfold qualified at h
  split at h
  · rename_i huri
    exact ⟨huri, h⟩
  · rw [← h] at hw
    exact absurd rfl hw

theorem expandAttr_plain {env : Env} {name w : Text} (henv : GoodEnv env) (hw : w.head? ≠ some '{')
    (h : expandAttr env name = some w) : name = w := by
  obtain ⟨n, hn, h⟩ := Option.bind_eq_some_iff.mp h
  split at h
  · rename_i hnil
    injection h with h
    rw [← h]
    exact splitName_plain (by rw [hn, ← hnil])
  · rename_i hprefix
    obtain ⟨uri, huri, h⟩ := Option.map_eq_some_iff.mp h
    obtain ⟨hempty, _⟩ := qualified_plain hw h
    have hmem : (n.1, uri) ∈ env := mem_of_lookup huri
    exact absurd (henv _ hmem hempty) hprefix

theorem expandTag_plain {env : Env} {name w : Text} (henv : GoodEnv env) (hw : w.head? ≠ some '{')
    (h : expandTag env name = some w) : name = w := by
  obtain ⟨n, hn, h⟩ := Option.bind_eq_some_iff.mp h
  split at h
  · rename_i hnil
    injection h with h
    rw [← (qualified_plain hw h).2]
    exact splitName_plain (by rw [hn, ← hnil])
  · rename_i hprefix
    obtain ⟨uri, huri, h⟩ := Option.map_eq_some_iff.mp h
    obtain ⟨hempty, _⟩ := qualified_plain hw h
    have hmem : (n.1, uri) ∈ env := mem_of_lookup huri
    exact absurd (henv _ hmem hempty) hprefix

/-! ## Start tags and their elements -/

/-- An element with this expanded name and these attributes was opened by the start tag `m`. -/
def OpenedBy (m tag : Text) (attrib : List (Text × Text)) : Prop :=
  ∃ env name attrs isEmpty f, GoodEnv env ∧ parseMarkup m = some (.start name attrs isEmpty) ∧
    newFrame env name attrs = some f ∧ f.tag = tag ∧ f.attrib = attrib

/-- **A name outside every namespace stands in the start tag as it is**, of the element and of its
attributes. -/
theorem openedBy_plain {m w k x : Text} {attrib : List (Text × Text)} (h : OpenedBy m w attrib)
    (hw : w.head? ≠ some '{') (hk : k.head? ≠ some '{') (hx : attrib.lookup k = some x) :
    ∃ attrs isEmpty, parseMarkup m = some (.start w attrs isEmpty) ∧ (k, x) ∈ attrs := by
  obtain ⟨env, name, attrs, isEmpty, f, henv, hm, hf, rfl, rfl⟩ := h
  obtain ⟨inner, hinner, _, _, htag, hattrib, _, _⟩ := newFrame_spec hf
  have hgood := goodEnv_foldlM henv hinner
  have hname : name = f.tag := expandTag_plain hgood hw htag
  obtain ⟨a, ha, hexpand⟩ := mem_mapM hattrib (mem_of_lookup hx)
  obtain ⟨n, hn, hpair⟩ := Option.map_eq_some_iff.mp hexpand
  injection hpair with hnk hax
  rw [hnk] at hn
  have hak : a.1 = k := expandAttr_plain hgood hk hn
  refine ⟨attrs, isEmpty, by rw [hm, hname], ?_⟩
  rw [← hak, ← hax]
  exact List.mem_of_mem_filter ha

/-! ## New text for leaves -/

section Retext

-- the characters that a start tag asks for behind it
variable (asked : Text → Option Text)

/-- Write the asked characters behind every start tag that asks for some. -/
def retext : Option Text → List (Text × Text) → List (Text × Text)
  | _, [] => []
  | now, (t, m) :: ps => (now.getD t, m) :: retext (asked m) ps

/-- Every changed piece keeps its markup, and has its own characters or asked ones. -/
theorem mem_retext {ps : List (Text × Text)} {now : Option Text} {p : Text × Text}
    (hp : p ∈ retext asked now ps) :
    ∃ q ∈ ps, p.2 = q.2 ∧ (p.1 = q.1 ∨ now = some p.1 ∨ ∃ r ∈ ps, asked r.2 = some p.1) := by
  induction ps generalizing now with
  | nil => exact absurd hp List.not_mem_nil
  | cons q ps ih =>
      obtain ⟨t, m⟩ := q
      rcases List.mem_cons.mp hp with rfl | hp
      · refine ⟨(t, m), List.mem_cons_self, rfl, ?_⟩
        cases now with
        | none => exact Or.inl rfl
        | some v => exact Or.inr (Or.inl rfl)
      · obtain ⟨r, hr, hmarkup, hchars⟩ := ih hp
        refine ⟨r, List.mem_cons_of_mem _ hr, hmarkup, ?_⟩
        rcases hchars with hsame | hasked | ⟨r', hr', hasked⟩
        · exact Or.inl hsame
        · exact Or.inr (Or.inr ⟨(t, m), List.mem_cons_self, hasked⟩)
        · exact Or.inr (Or.inr ⟨r', List.mem_cons_of_mem _ hr', hasked⟩)

/-- Behind a start tag that asks for characters comes a closing tag. -/
def Leaves : Bool → List (Text × Text) → Prop
  | opened, [] => opened = false
  | opened, (_, m) :: ps =>
      (opened = true → ∃ name, parseMarkup m = some (.close name)) ∧ Leaves (asked m).isSome ps

/-- The same tree, with new texts in some leaves: `Keep` is what is known of the elements that stay
as they are, `Replace` of those with a new text. -/
inductive Retexted (Keep : Text → List (Text × Text) → Prop)
    (Replace : Text → List (Text × Text) → Text → Prop) : Element → Element → Prop
  | kept {tag : Text} {attrib : List (Text × Text)} {text : Option Text} {cs cs' : List Element} :
      Keep tag attrib → List.Forall₂ (Retexted Keep Replace) cs cs' →
      Retexted Keep Replace (.mk tag attrib text cs) (.mk tag attrib text cs')
  | replaced {tag : Text} {attrib : List (Text × Text)} {text : Option Text} {v : Text} :
      Replace tag attrib v → Retexted Keep Replace (.mk tag attrib text []) (.mk tag attrib (textOf v) [])

variable (Keep : Text → List (Text × Text) → Prop) (Replace : Text → List (Text × Text) → Text → Prop)

/-- The pieces of a document whose leaves can be given their new texts. -/
structure Retextable (ps : List (Text × Text)) : Prop where
  starts : ∀ p ∈ ps, ∀ v, asked p.2 = some v → ∃ name attrs, parseMarkup p.2 = some (.start name attrs false)
  plain : ∀ p ∈ ps, ∀ v, asked p.2 = some v → PlainData v
  keeps : ∀ p ∈ ps, asked p.2 = none → ∀ tag attrib, OpenedBy p.2 tag attrib → Keep tag attrib
  replaces : ∀ p ∈ ps, ∀ v, asked p.2 = some v → ∀ tag attrib, OpenedBy p.2 tag attrib →
    Replace tag attrib v
  leaves : Leaves asked false ps

variable {asked Keep Replace} in
/-- Pieces further on can be given theirs as well. -/
theorem Retextable.mono {ps qs : List (Text × Text)} (h : Retextable asked Keep Replace ps)
    (hsub : ∀ q ∈ qs, q ∈ ps) (hleaves : Leaves asked false qs) : Retextable asked Keep Replace qs where
  starts := fun q hq => h.starts q (hsub q hq)
  plain := fun q hq => h.plain q (hsub q hq)
  keeps := fun q hq => h.keeps q (hsub q hq)
  replaces := fun q hq => h.replaces q (hsub q hq)
  leaves := hleaves

/-! ## Related states -/

/-- Two open elements that differ in their children only. -/
structure FrameRel (f f' : Frame) : Prop where
  same : f' = { f with children := f'.children }
  children : List.Forall₂ (Retexted Keep Replace) f.children f'.children
  keep : Keep f.tag f.attrib
  env : GoodEnv f.env

structure StateRel (st st' : State) : Prop where
  stack : List.Forall₂ (FrameRel Keep Replace) st.stack st'.stack
  root : Option.Rel (Retexted Keep Replace) st.root st'.root
  doctypeSeen : st.doctypeSeen = st'.doctypeSeen

variable {asked Keep Replace}

theorem FrameRel.element {f f' : Frame} (h : FrameRel Keep Replace f f') :
    Retexted Keep Replace f.element f'.element := by
  rw [h.same]
  exact Retexted.kept h.keep h.children

theorem FrameRel.addText {f f' : Frame} (h : FrameRel Keep Replace f f') (s : Text) :
    FrameRel Keep Replace (f.addText s) (f'.addText s) := by
  have hempty : f.children.isEmpty = f'.children.isEmpty := by
    have hlen := h.children.length_eq
    cases hf : f.children <;> cases hf' : f'.children <;> simp [hf, hf'] at hlen ⊢
  have hsame := h.same
  unfold Frame.addText
  rw [← hempty]
  split
  · refine ⟨?_, h.children, h.keep, h.env⟩
    rw [hsame]
  · exact h

theorem StateRel.isEmpty {st st' : State} (h : StateRel Keep Replace st st') :
    st.stack.isEmpty = st'.stack.isEmpty := by
  have hlen := h.stack.length_eq
  cases hf : st.stack <;> cases hf' : st'.stack <;> simp [hf, hf'] at hlen ⊢

theorem StateRel.root_isSome {st st' : State} (h : StateRel Keep Replace st st') :
    st.root.isSome = st'.root.isSome := by
  obtain ⟨_, root, _⟩ := st
  obtain ⟨_, root', _⟩ := st'
  obtain ⟨_, hroot, _⟩ := h
  cases hroot <;> rfl

theorem StateRel.env {st st' : State} (h : StateRel Keep Replace st st') :
    st'.env = st.env ∧ GoodEnv st.env := by
  obtain ⟨stack, root, d⟩ := st
  obtain ⟨stack', root', d'⟩ := st'
  cases h.stack with
  | nil => exact ⟨rfl, goodEnv_initial⟩
  | cons hf _ =>
      refine ⟨?_, hf.env⟩
      show Frame.env _ = Frame.env _
      rw [hf.same]

theorem stateRel_addText {st st' : State} (h : StateRel Keep Replace st st') (s : Text) :
    StateRel Keep Replace (addText s st) (addText s st') := by
  obtain ⟨stack, root, d⟩ := st
  obtain ⟨stack', root', d'⟩ := st'
  cases h.stack with
  | nil => exact h
  | cons hf hfs => exact ⟨List.Forall₂.cons (hf.addText s) hfs, h.root, h.doctypeSeen⟩

/-! ## One step -/

theorem stepChars_rel {raw : Text} {st st' s : State} (h : StateRel Keep Replace st st')
    (hstep : stepChars raw st = some s) :
    ∃ s', stepChars raw st' = some s' ∧ StateRel Keep Replace s s' := by
  unfold stepChars at hstep ⊢
  rw [← h.isEmpty]
  split at hstep
  · rename_i hempty
    rw [if_pos hempty]
    split at hstep
    · rename_i hspace
      obtain rfl := Option.some.inj hstep
      exact ⟨st', by rw [if_pos hspace], h⟩
    · exact absurd hstep (by simp)
  · rename_i hopen
    rw [if_neg hopen]
    obtain ⟨x, hx, rfl⟩ := Option.map_eq_some_iff.mp hstep
    exact ⟨addText x st', by rw [hx]; rfl, stateRel_addText h x⟩

/-- A finished element joins the innermost open element, or is the root. -/
def attach (e : Element) : State → Option State
  | ⟨g :: fs, root, d⟩ => some ⟨{ g with children := g.children ++ [e] } :: fs, root, d⟩
  | ⟨[], none, d⟩ => some ⟨[], some e, d⟩
  | _ => none

theorem closeTop_eq (f : Frame) (fs : List Frame) (root : Option Element) (d : Bool) :
    closeTop ⟨f :: fs, root, d⟩ = attach f.element ⟨fs, root, d⟩ := by
  cases fs with
  | nil => cases root <;> rfl
  | cons g fs => rfl

theorem attach_rel {e e' : Element} {st st' s : State} (he : Retexted Keep Replace e e')
    (h : StateRel Keep Replace st st') (hstep : attach e st = some s) :
    ∃ s', attach e' st' = some s' ∧ StateRel Keep Replace s s' := by
  obtain ⟨stack, root, d⟩ := st
  obtain ⟨stack', root', d'⟩ := st'
  obtain ⟨hstack, hroot, hd⟩ := h
  cases hstack with
  | nil =>
      cases hroot with
      | none =>
          obtain rfl := Option.some.inj hstep
          exact ⟨_, rfl, List.Forall₂.nil, Option.Rel.some he, hd⟩
      | some hr => exact absurd hstep (by simp [attach])
  | cons hg hfs =>
      obtain rfl := Option.some.inj hstep
      refine ⟨_, rfl, List.Forall₂.cons ⟨?_, ?_, hg.keep, hg.env⟩ hfs, hroot, hd⟩
      · rw [hg.same]
      · exact List.rel_append hg.children (List.Forall₂.cons he List.Forall₂.nil)

theorem closeTop_rel {st st' s : State} (h : StateRel Keep Replace st st')
    (hstep : closeTop st = some s) : ∃ s', closeTop st' = some s' ∧ StateRel Keep Replace s s' := by
  obtain ⟨stack, root, d⟩ := st
  obtain ⟨stack', root', d'⟩ := st'
  obtain ⟨hstack, hroot, hd⟩ := h
  cases hstack with
  | nil => exact absurd hstep (by simp [closeTop])
  | @cons f f' fs fs' hf hfs =>
      rw [closeTop_eq] at hstep ⊢
      have hbelow : StateRel Keep Replace ⟨fs, root, d⟩ ⟨fs', root', d'⟩ := ⟨hfs, hroot, hd⟩
      exact attach_rel hf.element hbelow hstep

/-- A start tag opens the same element in both states. -/
theorem openElement_rel {m name : Text} {attrs : List (Text × Text)} {isEmpty : Bool}
    {st st' s : State} (h : StateRel Keep Replace st st')
    (hm : parseMarkup m = some (.start name attrs isEmpty)) (hstep : openElement name attrs st = some s) :
    ∃ f, s = { st with stack := f :: st.stack } ∧ f.text = [] ∧ f.children = [] ∧ GoodEnv f.env ∧
      OpenedBy m f.tag f.attrib ∧
      openElement name attrs st' = some { st' with stack := f :: st'.stack } := by
  obtain ⟨henv, hgood⟩ := h.env
  unfold openElement at hstep ⊢
  rw [← h.isEmpty, ← h.root_isSome, henv]
  split at hstep
  · exact absurd hstep (by simp)
  · rename_i hcond
    rw [if_neg hcond]
    obtain ⟨f, hf, rfl⟩ := Option.map_eq_some_iff.mp hstep
    obtain ⟨inner, hinner, hfenv, _, _, _, htext, hchildren⟩ := newFrame_spec hf
    refine ⟨f, rfl, htext, hchildren, ?_, ⟨_, name, attrs, isEmpty, f, hgood, hm, hf, rfl, rfl⟩, ?_⟩
    · rw [hfenv]
      exact goodEnv_foldlM hgood hinner
    · rw [hf]
      rfl

/-- Markup that is kept. -/
theorem stepMarkup_rel {m : Text} {markup : Markup} {st st' s : State}
    (h : StateRel Keep Replace st st') (hkeep : ∀ tag attrib, OpenedBy m tag attrib → Keep tag attrib)
    (hm : parseMarkup m = some markup) (hstep : stepMarkup markup st = some s) :
    ∃ s', stepMarkup markup st' = some s' ∧ StateRel Keep Replace s s' := by
  cases markup with
  | start name attrs isEmpty =>
      obtain ⟨s₁, hopen, hstep⟩ := Option.bind_eq_some_iff.mp hstep
      obtain ⟨f, rfl, htext, hchildren, hgood, hopened, hopen'⟩ := openElement_rel h hm hopen
      have hrel : StateRel Keep Replace { st with stack := f :: st.stack }
          { st' with stack := f :: st'.stack } := by
        refine ⟨List.Forall₂.cons ⟨rfl, ?_, hkeep _ _ hopened, hgood⟩ h.stack, h.root,
          h.doctypeSeen⟩
        rw [hchildren]
        exact List.Forall₂.nil
      show ∃ s', ((openElement name attrs st').bind fun st => _) = some s' ∧ _
      rw [hopen', Option.bind_some]
      cases isEmpty with
      | true => exact closeTop_rel hrel hstep
      | false =>
          obtain rfl := Option.some.inj hstep
          exact ⟨_, rfl, hrel⟩
  | close name =>
      obtain ⟨stack, root, d⟩ := st
      obtain ⟨stack', root', d'⟩ := st'
      cases h.stack with
      | nil => exact absurd hstep (by simp [stepMarkup])
      | @cons f f' fs fs' hf hfs =>
          have hname : f'.name = f.name := by
            rw [hf.same]
          rw [stepMarkup_close] at hstep ⊢
          rw [hname]
          split at hstep
          · rename_i heq
            rw [if_pos heq]
            exact closeTop_rel h hstep
          · exact absurd hstep (by simp)
  | cdata x =>
      rw [stepMarkup_cdata] at hstep ⊢
      rw [← h.isEmpty]
      split at hstep
      · exact absurd hstep (by simp)
      · rename_i hopen
        obtain rfl := Option.some.inj hstep
        exact ⟨_, if_neg hopen, stateRel_addText h x⟩
  | comment =>
      obtain rfl := Option.some.inj hstep
      exact ⟨st', rfl, h⟩
  | instruction =>
      obtain rfl := Option.some.inj hstep
      exact ⟨st', rfl, h⟩
  | doctype =>
      have hroot : st.root.isNone = st'.root.isNone := by
        rw [← Option.not_isSome, ← Option.not_isSome, h.root_isSome]
      rw [stepMarkup_doctype] at hstep ⊢
      rw [← h.isEmpty, ← hroot, ← h.doctypeSeen]
      split at hstep
      · rename_i hcond
        obtain rfl := Option.some.inj hstep
        exact ⟨_, if_pos hcond, h.stack, h.root, rfl⟩
      · exact absurd hstep (by simp)

theorem step_rel {t m : Text} {st st' s : State} (h : StateRel Keep Replace st st')
    (hkeep : ∀ tag attrib, OpenedBy m tag attrib → Keep tag attrib)
    (hstep : step st (t, m) = some s) :
    ∃ s', step st' (t, m) = some s' ∧ StateRel Keep Replace s s' := by
  obtain ⟨s₁, hchars, hstep⟩ := Option.bind_eq_some_iff.mp hstep
  obtain ⟨markup, hm, hstep⟩ := Option.bind_eq_some_iff.mp hstep
  obtain ⟨s₁', hchars', hrel⟩ := stepChars_rel h hchars
  obtain ⟨s', hmarkup, hrel'⟩ := stepMarkup_rel hrel hkeep hm hstep
  refine ⟨s', ?_, hrel'⟩
  show (stepChars t st').bind _ = _
  rw [hchars', Option.bind_some, hm, Option.bind_some, hmarkup]

/-- A leaf gets its new characters. -/
theorem step_leaf {t m t' m' v name name' : Text} {attrs : List (Text × Text)} {st st' s₁ s : State}
    (h : StateRel Keep Replace st st')
    (hreplace : ∀ tag attrib, OpenedBy m tag attrib → Replace tag attrib v)
    (hv : charData v = some v) (hm : parseMarkup m = some (.start name attrs false))
    (hm' : parseMarkup m' = some (.close name')) (hopen : step st (t, m) = some s₁)
    (hclose : step s₁ (t', m') = some s) :
    ∃ s₁' s', step st' (t, m) = some s₁' ∧ step s₁' (v, m') = some s' ∧ StateRel Keep Replace s s' := by
  obtain ⟨s₀, hchars, hopen⟩ := Option.bind_eq_some_iff.mp hopen
  obtain ⟨s₀', hchars', hrel⟩ := stepChars_rel h hchars
  rw [hm, Option.bind_some] at hopen
  obtain ⟨s₂, hframe, hsame⟩ := Option.bind_eq_some_iff.mp hopen
  obtain rfl := Option.some.inj hsame
  obtain ⟨f, rfl, htext, hchildren, _, hopened, hopen'⟩ := openElement_rel hrel hm hframe
  obtain ⟨s₃, hchars₃, hclose⟩ := Option.bind_eq_some_iff.mp hclose
  rw [hm', Option.bind_some] at hclose
  obtain ⟨x, _, rfl⟩ := Option.map_eq_some_iff.mp hchars₃
  have hclose' : (if (f.addText x).name = name' then
      closeTop ⟨f.addText x :: s₀.stack, s₀.root, s₀.doctypeSeen⟩ else none) = some s := hclose
  split at hclose'
  · rename_i hname
    rw [closeTop_eq] at hclose'
    have hleaf : Retexted Keep Replace (f.addText x).element (f.addText v).element := by
      have hmk : ∀ y, (f.addText y).element = .mk f.tag f.attrib (textOf y) [] := by
        intro y
        simp [Frame.addText, Frame.element, hchildren, htext]
      rw [hmk, hmk]
      exact Retexted.replaced (hreplace _ _ hopened)
    obtain ⟨s', hattach, hrel'⟩ := attach_rel hleaf hrel hclose'
    refine ⟨{ s₀' with stack := f :: s₀'.stack }, s', ?_, ?_, hrel'⟩
    · show (stepChars t st').bind _ = _
      rw [hchars', Option.bind_some, hm, Option.bind_some]
      show ((openElement name attrs s₀').bind fun st => _) = _
      rw [hopen']
      rfl
    · have hchars : stepChars v ⟨f :: s₀'.stack, s₀'.root, s₀'.doctypeSeen⟩
          = some ⟨f.addText v :: s₀'.stack, s₀'.root, s₀'.doctypeSeen⟩ := stepChars_inside hv _ _ _ _
      show (stepChars v ⟨f :: s₀'.stack, s₀'.root, s₀'.doctypeSeen⟩).bind _ = _
      rw [hchars, Option.bind_some, hm', Option.bind_some]
      show (if (f.addText v).name = name' then
        closeTop ⟨f.addText v :: s₀'.stack, s₀'.root, s₀'.doctypeSeen⟩ else none) = _
      rw [Frame.addText_name] at hname ⊢
      rw [if_pos hname, closeTop_eq, hattach]
  · exact absurd hclose' (by simp)

/-! ## Whole documents -/

/-- **The builder takes the changed pieces along.** -/
theorem build_retext {ps : List (Text × Text)} {st st' s : State}
    (hps : Retextable asked Keep Replace ps) (h : StateRel Keep Replace st st') (hbuild : build st ps = some s) :
    ∃ s', build st' (retext asked none ps) = some s' ∧ StateRel Keep Replace s s' := by
  induction ps using List.twoStepInduction generalizing st st' with
  | nil =>
      obtain rfl := Option.some.inj hbuild
      exact ⟨st', rfl, h⟩
  | singleton p =>
      obtain ⟨t, m⟩ := p
      obtain ⟨s₁, hstep, hbuild⟩ := Option.bind_eq_some_iff.mp hbuild
      obtain rfl := Option.some.inj hbuild
      -- a last start tag that asks for characters is not closed
      have hasked : asked m = none := by
        have hleaves : (asked m).isSome = false := hps.leaves.2
        simpa using hleaves
      obtain ⟨s', hstep', hrel⟩ := step_rel h (hps.keeps _ List.mem_cons_self hasked) hstep
      exact ⟨s', by simp [retext, hstep'], hrel⟩
  | cons_cons p q ps ihSkip ih =>
      obtain ⟨t, m⟩ := p
      obtain ⟨t', m'⟩ := q
      obtain ⟨s₁, hstep, hbuild⟩ := Option.bind_eq_some_iff.mp hbuild
      have hleaves : Leaves asked (asked m).isSome ((t', m') :: ps) := hps.leaves.2
      cases hasked : asked m with
      | none =>
          rw [hasked] at hleaves
          obtain ⟨s₁', hstep', hrel⟩ := step_rel h (hps.keeps _ List.mem_cons_self hasked) hstep
          have hps' := hps.mono (fun r hr => List.mem_cons_of_mem _ hr) hleaves
          obtain ⟨s', hbuild', hrel'⟩ := ih (t', m') hps' hrel hbuild
          refine ⟨s', ?_, hrel'⟩
          rw [retext, Option.getD_none, hasked, build_cons, hstep', Option.bind_some, hbuild']
      | some v =>
          rw [hasked] at hleaves
          obtain ⟨name', hm'⟩ := hleaves.1 rfl
          obtain ⟨name, attrs, hm⟩ := hps.starts (t, m) List.mem_cons_self v hasked
          have hv := charData_plain (hps.plain (t, m) List.mem_cons_self v hasked)
          obtain ⟨s₂, hclose, hbuild⟩ := Option.bind_eq_some_iff.mp hbuild
          obtain ⟨s₁', s₂', hstep', hclose', hrel⟩ := step_leaf h
            (hps.replaces _ List.mem_cons_self v hasked) hv hm hm' hstep hclose
          have hstart : asked m' = none := by
            -- a closing tag is no start tag
            cases hasked' : asked m' with
            | none => rfl
            | some w =>
                obtain ⟨_, _, hstart⟩ := hps.starts (t', m')
                  (List.mem_cons_of_mem _ List.mem_cons_self) w hasked'
                rw [hm'] at hstart
                exact absurd hstart (by simp)
          have hleaves' : Leaves asked false ps := by
            have hrest := hleaves.2
            rw [hstart] at hrest
            exact hrest
          have hps' := hps.mono
            (fun r hr => List.mem_cons_of_mem _ (List.mem_cons_of_mem _ hr)) hleaves'
          obtain ⟨s', hbuild', hrel'⟩ := ihSkip hps' hrel hbuild
          refine ⟨s', ?_, hrel'⟩
          rw [retext, retext, Option.getD_none, hasked, Option.getD_some, hstart, build_cons, hstep',
            Option.bind_some, build_cons, hclose', Option.bind_some, hbuild']

theorem finish_rel {last : Text} {st st' : State} {root : Element} (h : StateRel Keep Replace st st')
    (hfinish : finish last st = some root) :
    ∃ root', finish last st' = some root' ∧ Retexted Keep Replace root root' := by
  obtain ⟨s, hchars, hroot⟩ := Option.bind_eq_some_iff.mp hfinish
  obtain ⟨s', hchars', hrel⟩ := stepChars_rel h hchars
  have hfinish' : finish last st' = if s'.stack.isEmpty then s'.root else none := by
    rw [finish, hchars', Option.bind_some]
  rw [hfinish', ← hrel.isEmpty]
  split at hroot
  · rename_i hempty
    rw [if_pos hempty]
    obtain ⟨_, sroot, _⟩ := s
    obtain ⟨_, sroot', _⟩ := s'
    obtain ⟨_, hrelroot, _⟩ := hrel
    cases hrelroot with
    | none => exact absurd hroot (by simp)
    | some hr =>
        obtain rfl := Option.some.inj hroot
        exact ⟨_, rfl, hr⟩
  · exact absurd hroot (by simp)

/-- An XML declaration is no start tag. -/
theorem parseMarkup_xmlDecl {m name : Text} {attrs : List (Text × Text)} {isEmpty : Bool}
    (h : isXmlDecl m = true) : parseMarkup m ≠ some (.start name attrs isEmpty) := by
  have hprefix : "<?xml".toList <+: m := by
    have hboth := (Bool.and_eq_true _ _).mp h
    exact of_decide_eq_true hboth.1
  obtain ⟨r, rfl⟩ := hprefix
  intro hm
  have hinstruction : parseMarkup ("<?xml".toList ++ r) = parseInstruction ("<?xml".toList ++ r) := by
    unfold parseMarkup
    rw [if_neg (by simp), if_neg (by simp), if_pos (by simp)]
  rw [hinstruction] at hm
  unfold parseInstruction at hm
  obtain ⟨⟨target, rest⟩, _, hm⟩ := Option.bind_eq_some_iff.mp hm
  dsimp only at hm
  split at hm
  · exact absurd hm (by simp)
  · split at hm
    · exact absurd hm (by simp)
    · exact absurd hm (by simp)

theorem dropXmlDecl_retext {ps qs : List (Text × Text)} (hps : Retextable asked Keep Replace ps)
    (h : dropXmlDecl ps = some qs) :
    dropXmlDecl (retext asked none ps) = some (retext asked none qs) ∧
      Retextable asked Keep Replace qs := by
  have hsame : ps = qs → dropXmlDecl (retext asked none ps) = some (retext asked none ps) →
      dropXmlDecl (retext asked none ps) = some (retext asked none qs) ∧
        Retextable asked Keep Replace qs := by
    intro heq hdrop
    subst heq
    exact ⟨hdrop, hps⟩
  cases ps with
  | nil =>
      obtain rfl := Option.some.inj h
      exact hsame rfl rfl
  | cons p ps =>
      obtain ⟨t, m⟩ := p
      cases t with
      | cons c t =>
          obtain rfl := Option.some.inj h
          exact hsame rfl rfl
      | nil =>
          have hdef : ∀ (m : Text) ps, dropXmlDecl (([], m) :: ps) = if isXmlDecl m then
              (if validXmlDecl m then some ps else none) else some (([], m) :: ps) := fun _ _ => rfl
          rw [hdef] at h
          split at h
          · rename_i hdecl
            split at h
            · rename_i hvalid
              obtain rfl := Option.some.inj h
              have hasked : asked m = none := by
                cases hasked : asked m with
                | none => rfl
                | some v =>
                    obtain ⟨name, attrs, hm⟩ := hps.starts _ List.mem_cons_self v hasked
                    exact absurd hm (parseMarkup_xmlDecl hdecl)
              have hleaves : Leaves asked false ps := by
                have hrest := hps.leaves.2
                rw [hasked] at hrest
                exact hrest
              refine ⟨?_, hps.mono (fun q hq => List.mem_cons_of_mem _ hq) hleaves⟩
              rw [retext, hasked, Option.getD_none, hdef, if_pos hdecl, if_pos hvalid]
            · exact absurd h (by simp)
          · rename_i hdecl
            obtain rfl := Option.some.inj h
            apply hsame rfl
            rw [retext, Option.getD_none, hdef, if_neg hdecl]

/-- **A changed document is read, as the same tree with the new texts.** -/
theorem readPieces_retext {ps : List (Text × Text)} {last : Text} {root : Element}
    (hps : Retextable asked Keep Replace ps) (h : readPieces (ps, last) = some root) :
    ∃ root', readPieces (retext asked none ps, last) = some root' ∧
      Retexted Keep Replace root root' := by
  obtain ⟨qs, hdrop, h⟩ := Option.bind_eq_some_iff.mp h
  obtain ⟨st, hbuild, hfinish⟩ := Option.bind_eq_some_iff.mp h
  obtain ⟨hdrop', hqs⟩ := dropXmlDecl_retext hps hdrop
  have hinit : StateRel Keep Replace initialState initialState :=
    ⟨List.Forall₂.nil, Option.Rel.none, rfl⟩
  obtain ⟨st', hbuild', hrel⟩ := build_retext hqs hinit hbuild
  obtain ⟨root', hfinish', htree⟩ := finish_rel hrel hfinish
  refine ⟨root', ?_, htree⟩
  show (dropXmlDecl (retext asked none ps)).bind _ = _
  rw [hdrop', Option.bind_some, hbuild', Option.bind_some, hfinish']

end Retext

end JosfraPge.Foundation.XmlRetext
