import JosfraPge.Foundation.XmlDocument
import JosfraPge.Launcher.ScalarEdits

/-!
# The launcher's edits of a document with declarations

The editor does not know what a document type declaration declares.  It recognises a scalar that stands in
the document itself, in a text that no entity brings markup into.

* `carryOut_retext`: what is written behind the start tags is written into what the document stands for;
* `leaves_carryOut`: the start tags are closed at once there as well.
-/

namespace JosfraPge.Launcher.DeclaredEdits

open JosfraPge.Foundation.LineText
open JosfraPge.Foundation.XmlScan
open JosfraPge.Foundation.XmlTree
open JosfraPge.Foundation.XmlDocument
open JosfraPge.Foundation.XmlRetext
open JosfraPge.Launcher.SetConfigScalar
open JosfraPge.Launcher.ScalarEdits

/-! ## The editor's form -/

/-- Whether a piece of markup is a start tag of a scalar of this name. -/
def startsScalar (name m : Text) : Bool :=
  match parseMarkup m with
  | some (.start tag attrs _) => tag == "scalar".toList && attrs.contains ("name".toList, name)
  | _ => false

/-- In the characters behind the markup that `opens` no entity stands for markup. -/
def OwnText (d : Declarations) (opens : Text → Bool) : Bool → List (Text × Text) → Prop
  | _, [] => True
  | opened, (t, m) :: ps =>
      (opened = true → ∀ q ∈ d.chars t, q.1 = []) ∧ OwnText d opens (opens m) ps

instance decidableOwnText (d : Declarations) (opens : Text → Bool) :
    ∀ (opened : Bool) (ps : List (Text × Text)), Decidable (OwnText d opens opened ps)
  | _, [] => inferInstanceAs (Decidable True)
  | opened, (t, m) :: ps =>
      have := decidableOwnText d opens (opens m) ps
      inferInstanceAs (Decidable ((opened = true → ∀ q ∈ d.chars t, q.1 = []) ∧
        OwnText d opens (opens m) ps))

def opensScalar (name m : Text) : Bool := decide (m = openingTag name)

/-- The form in which the editor recognises every scalar of a name. -/
structure Editable (d : Declarations) (name : Text) (ps : List (Text × Text)) : Prop where
  literal : ∀ p ∈ ps, ∀ m ∈ d.markup p.2, startsScalar name m = true → p.2 = openingTag name
  /-- No entity brings a scalar of the name. -/
  entities : ∀ p ∈ ps, ∀ q ∈ d.chars p.1, ∀ e ∈ q.1, startsScalar name e.2 = false
  ownText : OwnText d (opensScalar name) false ps
  placed : Placed name .fresh ps

instance (d : Declarations) (name : Text) (ps : List (Text × Text)) : Decidable (Editable d name ps) :=
  decidable_of_iff ((∀ p ∈ ps, ∀ m ∈ d.markup p.2, startsScalar name m = true → p.2 = openingTag name) ∧
      (∀ p ∈ ps, ∀ q ∈ d.chars p.1, ∀ e ∈ q.1, startsScalar name e.2 = false) ∧
      OwnText d (opensScalar name) false ps ∧ Placed name .fresh ps)
    ⟨fun h => ⟨h.1, h.2.1, h.2.2.1, h.2.2.2⟩, fun h => ⟨h.literal, h.entities, h.ownText, h.placed⟩⟩

/-! ## Carrying out declarations -/

section CarryOut

variable {d : Declarations} {ps qs : List (Text × Text)} {asked asked' : Text → Option Text}

theorem isStartTag_of_parse {m name : Text} (h : parseMarkup m = some (.close name)) :
    isStartTag m = false := by
  by_contra hstart
  have hstart : isStartTag m = true := by simpa using hstart
  simp only [isStartTag, Bool.not_eq_true', Bool.or_eq_false_iff, decide_eq_false_iff_not] at hstart
  obtain ⟨⟨hbang, hquestion⟩, hslash⟩ := hstart
  have hcomment : ¬ "<!--".toList <+: m :=
    fun h => hbang ((by decide : "<!".toList <+: "<!--".toList).trans h)
  have hcdata : ¬ "<![CDATA[".toList <+: m :=
    fun h => hbang ((by decide : "<!".toList <+: "<![CDATA[".toList).trans h)
  rw [parseMarkup, if_neg hcomment, if_neg hcdata, if_neg hquestion, if_neg hbang, if_neg hslash] at h
  obtain ⟨_, _, h⟩ := Option.bind_eq_some_iff.1 h
  obtain ⟨_, _, h⟩ := Option.bind_eq_some_iff.1 h
  exact absurd h (by simp)

/-- A closing tag stands for itself. -/
theorem markup_close {m name : Text} (h : parseMarkup m = some (.close name)) : d.markup m = some m := by
  rw [Declarations.markup, isStartTag_of_parse h]
  rfl

/-- What is written out comes from an entity or stands in the document. -/
theorem mem_carryOut (h : d.carryOut ps = some qs) {q : Text × Text} (hq : q ∈ qs) :
    (∃ p ∈ ps, ∃ x ∈ d.chars p.1, q ∈ x.1) ∨ ∃ p ∈ ps, d.markup p.2 = some q.2 := by
  induction ps generalizing qs with
  | nil =>
      obtain rfl := Option.some.inj h
      exact absurd hq List.not_mem_nil
  | cons p ps ih =>
      obtain ⟨es, t', m', qs', ht, hm, hps, rfl⟩ := carryOut_cons.1 h
      rcases List.mem_append.1 hq with hq | hq
      · exact Or.inl ⟨p, List.mem_cons_self, _, ht, hq⟩
      · rcases List.mem_cons.1 hq with rfl | hq
        · exact Or.inr ⟨p, List.mem_cons_self, hm⟩
        · rcases ih hps hq with ⟨p', hp', hrest⟩ | ⟨p', hp', hrest⟩
          · exact Or.inl ⟨p', List.mem_cons_of_mem _ hp', hrest⟩
          · exact Or.inr ⟨p', List.mem_cons_of_mem _ hp', hrest⟩

theorem retext_append {es : List (Text × Text)} (h : ∀ e ∈ es, asked' e.2 = none) :
    retext asked' none (es ++ qs) = es ++ retext asked' none qs := by
  induction es with
  | nil => rfl
  | cons e es ih =>
      have hrest := ih fun e' he' => h e' (List.mem_cons_of_mem _ he')
      rw [List.cons_append, retext, h e List.mem_cons_self, hrest]
      rfl

theorem leaves_append {es : List (Text × Text)} (h : ∀ e ∈ es, asked' e.2 = none)
    (hqs : Leaves asked' false qs) : Leaves asked' false (es ++ qs) := by
  induction es with
  | nil => exact hqs
  | cons e es ih =>
      have hrest := ih fun e' he' => h e' (List.mem_cons_of_mem _ he')
      refine ⟨fun hopened => absurd hopened (by simp), ?_⟩
      rw [h e List.mem_cons_self]
      exact hrest

/-- What start tags ask for, in a document and in what it stands for. -/
structure AsksAlike (d : Declarations) (asked asked' : Text → Option Text) (ps : List (Text × Text)) :
    Prop where
  tags : ∀ p ∈ ps, ∀ m ∈ d.markup p.2, asked' m = asked p.2
  entities : ∀ p ∈ ps, ∀ q ∈ d.chars p.1, ∀ e ∈ q.1, asked' e.2 = none

theorem AsksAlike.tail {p : Text × Text} (h : AsksAlike d asked asked' (p :: ps)) :
    AsksAlike d asked asked' ps :=
  ⟨fun q hq => h.tags q (List.mem_cons_of_mem _ hq), fun q hq => h.entities q (List.mem_cons_of_mem _ hq)⟩

/-- **Texts without references** are written into a document and into what it stands for alike. -/
theorem carryOut_retext (halike : AsksAlike d asked asked' ps) (h : d.carryOut ps = some qs)
    (hvalues : ∀ p ∈ ps, ∀ v ∈ asked p.2, '&' ∉ v) {now : Option Text} (hnow : ∀ v ∈ now, '&' ∉ v)
    (hown : OwnText d (fun m => (asked m).isSome) now.isSome ps) :
    d.carryOut (retext asked now ps) = some (retext asked' now qs) := by
  induction ps generalizing qs now with
  | nil =>
      obtain rfl := Option.some.inj h
      rfl
  | cons p ps ih =>
      obtain ⟨t, m⟩ := p
      obtain ⟨es, t', m', qs', ht, hm, hps, rfl⟩ := carryOut_cons.1 h
      have hrest := ih halike.tail hps (fun q hq => hvalues q (List.mem_cons_of_mem _ hq))
        (hvalues (t, m) List.mem_cons_self) hown.2
      have hasked : asked' m' = asked m := halike.tags (t, m) List.mem_cons_self m' hm
      have hes : ∀ e ∈ es, asked' e.2 = none := halike.entities (t, m) List.mem_cons_self _ ht
      cases now with
      | none =>
          refine carryOut_cons.2 ⟨es, t', m', _, ht, hm, hrest, ?_⟩
          rw [retext_append hes, retext, hasked]
          rfl
      | some v =>
          obtain rfl : es = [] := hown.1 rfl _ ht
          refine carryOut_cons.2 ⟨[], v, m', _, d.chars_plain v (hnow v rfl), hm, hrest, ?_⟩
          rw [List.nil_append, List.nil_append, retext, hasked]
          rfl

/-- Start tags that are closed at once are so in what the document stands for. -/
theorem leaves_carryOut (halike : AsksAlike d asked asked' ps) (h : d.carryOut ps = some qs)
    {opened : Bool} (hown : OwnText d (fun m => (asked m).isSome) opened ps)
    (hleaves : Leaves asked opened ps) : Leaves asked' opened qs := by
  induction ps generalizing qs opened with
  | nil =>
      obtain rfl := Option.some.inj h
      exact hleaves
  | cons p ps ih =>
      obtain ⟨t, m⟩ := p
      obtain ⟨es, t', m', qs', ht, hm, hps, rfl⟩ := carryOut_cons.1 h
      have hrest : Leaves asked' (asked m).isSome qs' := ih halike.tail hps hown.2 hleaves.2
      have hasked : asked' m' = asked m := halike.tags (t, m) List.mem_cons_self m' hm
      rw [← hasked] at hrest
      cases opened with
      | false =>
          apply leaves_append (halike.entities (t, m) List.mem_cons_self _ ht)
          exact ⟨fun hopened => absurd hopened (by simp), hrest⟩
      | true =>
          obtain rfl : es = [] := hown.1 rfl _ ht
          obtain ⟨name, hclose⟩ := hleaves.1 rfl
          obtain rfl : m = m' := Option.some.inj ((markup_close hclose).symm.trans hm)
          exact ⟨fun _ => ⟨name, hclose⟩, hrest⟩

/-- New texts leave the document type declaration as it is. -/
theorem declarationsOf_retext (reader : Reader) (asked : Text → Option Text) (now : Option Text)
    (ps : List (Text × Text)) :
    declarationsOf reader (retext asked now ps) = declarationsOf reader ps := by
  induction ps generalizing now with
  | nil => rfl
  | cons p ps ih =>
      obtain ⟨t, m⟩ := p
      rw [retext, declarationsOf, declarationsOf, ih]

end CarryOut

/-! ## The calls -/

section Calls

variable {d : Declarations} {calls : List (Text × Text)} {ps qs : List (Text × Text)}

/-- The characters the calls are to write behind a start tag, by what it says. -/
def wanting (calls : List (Text × Text)) (m : Text) : Option Text :=
  (calls.find? fun c => startsScalar c.1 m).map Prod.snd

theorem wanting_some {m v : Text} (h : wanting calls m = some v) :
    ∃ name, (name, v) ∈ calls ∧ startsScalar name m = true := by
  obtain ⟨c, hc, rfl⟩ := Option.map_eq_some_iff.1 h
  have hstarts := List.find?_some hc
  exact ⟨c.1, List.mem_of_find?_eq_some hc, hstarts⟩

theorem wanting_none {m : Text} (h : wanting calls m = none) : ∀ c ∈ calls, startsScalar c.1 m = false := by
  intro c hc
  have hnone := List.find?_eq_none.1 (Option.map_eq_none_iff.1 h) c hc
  simpa using hnone

/-- The editor's start tag of a name says what it should. -/
structure TagName (name : Text) : Prop where
  parsed : parseMarkup (openingTag name)
    = some (.start "scalar".toList [("name".toList, name)] false)
  no_reference : '&' ∉ openingTag name
  no_space : ' ' ∉ name

theorem isStartTag_openingTag (name : Text) : isStartTag (openingTag name) = true := rfl

/-- So does what it stands for. -/
theorem parse_markup {name m : Text} (hname : TagName name) (h : d.markup (openingTag name) = some m) :
    ∃ attrs, parseMarkup m = some (.start "scalar".toList attrs false) ∧
      ("name".toList, name) ∈ attrs := by
  rw [Declarations.markup, isStartTag_openingTag, if_pos rfl] at h
  have hvalues : ∀ a ∈ [("name".toList, name)], ' ' ∉ a.2 := by
    intro a ha
    rw [List.mem_singleton.1 ha]
    exact hname.no_space
  obtain ⟨attrs, hm, hsub⟩ := d.startTag_keeps hname.no_reference hname.parsed hvalues h
  exact ⟨attrs, hm, hsub List.mem_cons_self⟩

theorem startsScalar_of_parse {name m : Text} {attrs : List (Text × Text)} {isEmpty : Bool}
    (h : parseMarkup m = some (.start "scalar".toList attrs isEmpty))
    (hattr : ("name".toList, name) ∈ attrs) : startsScalar name m = true := by
  unfold startsScalar
  rw [h]
  simpa using hattr

/-- **The calls ask by the start tag in the document as they should by what it says.** -/
theorem asksAlike_calls (hnames : ∀ c ∈ calls, TagName c.1) (hform : ∀ c ∈ calls, Editable d c.1 ps) :
    AsksAlike d (asking calls) (wanting calls) ps where
  tags := by
    intro p hp m hm
    have hsame : ∀ c ∈ calls, startsScalar c.1 m = decide (p.2 = openingTag c.1) := by
      intro c hc
      apply Bool.eq_iff_iff.2
      rw [decide_eq_true_eq]
      refine ⟨(hform c hc).literal p hp m hm, ?_⟩
      intro hopen
      rw [hopen] at hm
      obtain ⟨attrs, hparse, hattr⟩ := parse_markup (hnames c hc) hm
      exact startsScalar_of_parse hparse hattr
    unfold wanting asking caller
    apply congrArg (Option.map Prod.snd)
    clear hform hnames
    induction calls with
    | nil => rfl
    | cons c calls ih =>
        rw [List.find?_cons, List.find?_cons, hsame c List.mem_cons_self,
          ih fun c' hc' => hsame c' (List.mem_cons_of_mem _ hc')]
  entities := by
    intro p hp q hq e he
    cases hwant : wanting calls e.2 with
    | none => rfl
    | some v =>
        obtain ⟨name, hmem, hstarts⟩ := wanting_some hwant
        exact absurd hstarts (by rw [(hform _ hmem).entities p hp q hq e he]; simp)

/-- Behind the start tags of all the calls stands own text; `now` is the call whose start tag has just been
read. -/
theorem ownText_asking {now : Option (Text × Text)} (hnow : ∀ c ∈ now, c ∈ calls)
    (h : ∀ c ∈ calls, ∃ opened, OwnText d (opensScalar c.1) opened ps ∧ (now = some c → opened = true)) :
    OwnText d (fun m => (asking calls m).isSome) now.isSome ps := by
  induction ps generalizing now with
  | nil => trivial
  | cons p ps ih =>
      obtain ⟨t, m⟩ := p
      constructor
      · intro hopened
        obtain ⟨c, rfl⟩ := Option.isSome_iff_exists.1 hopened
        obtain ⟨opened, hown, hc⟩ := h c (hnow c rfl)
        exact hown.1 (hc rfl)
      · have hrest : OwnText d (fun m => (asking calls m).isSome) (caller calls m).isSome ps := by
          refine ih (fun c hc => (caller_some hc).1) ?_
          intro c hc
          obtain ⟨opened, hown, -⟩ := h c hc
          exact ⟨_, hown.2, fun hcaller => decide_eq_true (caller_some hcaller).2⟩
        show OwnText d _ (asking calls m).isSome ps
        rw [asking, Option.isSome_map]
        exact hrest

end Calls

end JosfraPge.Launcher.DeclaredEdits
