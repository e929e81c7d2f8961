import JosfraPge.Config.ScalarReaders
import JosfraPge.Foundation.XmlRetext
import JosfraPge.Launcher.LaunchRun

/-!
# The launcher's edits of a document

The launcher edits lines of text, the PGE reads elements.  The two can agree on a document that writes
each supplied scalar the way the editor looks for it: its start tag as `<scalar name="N">`, the text and
the closing tag behind it on the same line, one of them to a line, and that tag nowhere else.

* `edit_placed`: on such a document the edit of lines is the replacement of the characters behind the
  start tags;
* `editAll_document`: so is a whole sequence of edits that ends without an error.
-/

namespace JosfraPge.Launcher.ScalarEdits

open JosfraPge.Foundation.LineText
open JosfraPge.Foundation.DelimitedField
open JosfraPge.Foundation.SedScript
open JosfraPge.Foundation.XmlScan
open JosfraPge.Foundation.XmlTree
open JosfraPge.Foundation.XmlRetext
open JosfraPge.Foundation.DirectoryTree
open JosfraPge.Foundation.RunRules
open JosfraPge.Config.ScalarReaders
open JosfraPge.Launcher.SetConfigScalar
open JosfraPge.Launcher.LaunchRun

/-! ## Documents the editor understands -/

/-- A line that has had no scalar of the name yet, one that has had its scalar, and the place behind the
start tag. -/
inductive LineState where
  | fresh
  | used
  | opened
  deriving DecidableEq

/-- A newline starts a fresh line. -/
def LineState.after (s : LineState) (w : Text) : LineState := if '\n' ∈ w then .fresh else s

/-- The scalars of a name stand one to a line, each with its closing tag, and their start tag stands
inside no other markup. -/
def Placed (name : Text) : LineState → List (Text × Text) → Prop
  | s, [] => s ≠ .opened
  | .opened, (t, m) :: ps => '\n' ∉ t ∧ m = closingTag ∧ Placed name .used ps
  | s, (t, m) :: ps =>
      if m = openingTag name then s.after t = .fresh ∧ Placed name .opened ps
      else ¬ Occurs (openingTag name) m ∧ Placed name ((s.after t).after m) ps

instance decidablePlaced (name : Text) :
    ∀ (s : LineState) (ps : List (Text × Text)), Decidable (Placed name s ps)
  | s, [] => inferInstanceAs (Decidable (s ≠ .opened))
  | .opened, (t, m) :: ps =>
      have := decidablePlaced name .used ps
      inferInstanceAs (Decidable ('\n' ∉ t ∧ m = closingTag ∧ Placed name .used ps))
  | .fresh, (t, m) :: ps =>
      have := decidablePlaced name .opened ps
      have := decidablePlaced name ((LineState.fresh.after t).after m) ps
      inferInstanceAs (Decidable (if m = openingTag name then
        LineState.fresh.after t = .fresh ∧ Placed name .opened ps
        else ¬ Occurs (openingTag name) m ∧ Placed name ((LineState.fresh.after t).after m) ps))
  | .used, (t, m) :: ps =>
      have := decidablePlaced name .opened ps
      have := decidablePlaced name ((LineState.used.after t).after m) ps
      inferInstanceAs (Decidable (if m = openingTag name then
        LineState.used.after t = .fresh ∧ Placed name .opened ps
        else ¬ Occurs (openingTag name) m ∧ Placed name ((LineState.used.after t).after m) ps))

/-! ## The edit of lines, piece by piece -/

/-- Everything of the start tag but its end. -/
theorem openingTag_dropLast {name : Text} (hname : PlainName name) :
    ∃ w, openingTag name = w ++ ['>'] ∧ '>' ∉ w := by
  refine ⟨openingHead ++ (name ++ ['"']), ?_, ?_⟩
  · simp [openingTag, openingTail]
  · rw [List.mem_append, List.mem_append, not_or, not_or]
    refine ⟨by decide, ?_, by decide⟩
    intro h
    exact absurd (hname _ h) (by decide)

theorem noStart_chars {name t : Text} (ht : '<' ∉ t) (s : Text) : NoStart (openingTag name) t s := by
  intro a b htext hb hprefix
  cases b with
  | nil => exact hb rfl
  | cons c b =>
      have hc : '<' = c := (List.cons_prefix_cons.mp hprefix).1
      apply ht
      rw [htext, hc]
      exact List.mem_append_right a List.mem_cons_self

/-- The start tag does not begin inside other markup and end behind it: it would have a `>` too
many. -/
theorem noStart_markup {name m : Text} (hname : PlainName name) (hm : IsMarkup m)
    (hno : ¬ Occurs (openingTag name) m) (s : Text) : NoStart (openingTag name) m s := by
  intro a b htext hb hprefix
  obtain ⟨w, hw, hgt⟩ := openingTag_dropLast hname
  rcases Nat.lt_or_ge b.length (openingTag name).length with hshort | hlong
  · have hbw : b <+: openingTag name :=
      List.prefix_of_prefix_length_le (List.prefix_append b s) hprefix hshort.le
    have hbw' : b <+: w := by
      rw [hw] at hbw hshort
      rw [List.length_append, List.length_singleton] at hshort
      exact List.prefix_of_prefix_length_le hbw (List.prefix_append w _) (by omega)
    have hlast : b.getLast? = some '>' := by
      have hends := isMarkup_ends hm
      rw [htext, List.getLast?_append_of_ne_nil a hb] at hends
      exact hends
    exact hgt (hbw'.subset (List.mem_of_getLast? hlast))
  · have hbop : openingTag name <+: b :=
      List.prefix_of_prefix_length_le hprefix (List.prefix_append b s) hlong
    apply hno
    rw [htext]
    exact hbop.isInfix.trans (List.suffix_append a b).isInfix

theorem pieces_text_cons (t m : Text) (ps : List (Text × Text)) (last : Text) :
    Pieces.text ((t, m) :: ps, last) = t ++ (m ++ Pieces.text (ps, last)) := by
  simp [Pieces.text]

/-- The calls of `set_config_scalar` as an answer to start tags: the one that `m` is edited by. -/
def caller (calls : List (Text × Text)) (m : Text) : Option (Text × Text) :=
  calls.find? fun c => decide (m = openingTag c.1)

/-- The characters the calls write behind a start tag. -/
def asking (calls : List (Text × Text)) (m : Text) : Option Text := (caller calls m).map Prod.snd

theorem asking_single (name v m : Text) :
    asking [(name, v)] m = if m = openingTag name then some v else none := by
  unfold asking caller
  by_cases h : m = openingTag name <;> simp [h]

theorem newline_not_mem_openingTag {name : Text} (hname : PlainName name) :
    '\n' ∉ openingTag name := fun h => (openingTag_ordinary hname _ h).2.2.2 rfl

/-- The state of a line, as the edit has it. -/
def LineState.isFresh (s : LineState) : Bool := s = .fresh

theorem isFresh_after (s : LineState) (w : Text) :
    (s.after w).isFresh = (s.isFresh || decide ('\n' ∈ w)) := by
  unfold LineState.after
  split
  · rename_i h
    simp [h, LineState.isFresh]
  · rename_i h
    simp [h]

theorem LineState.after_ne_opened {s : LineState} (hs : s ≠ .opened) (w : Text) :
    s.after w ≠ .opened := by
  unfold LineState.after
  split
  · exact fun h => LineState.noConfusion h
  · exact hs

theorem placed_cons {name t m : Text} {s : LineState} {ps : List (Text × Text)} (hs : s ≠ .opened) :
    Placed name s ((t, m) :: ps) ↔
      if m = openingTag name then s.after t = .fresh ∧ Placed name .opened ps
      else ¬ Occurs (openingTag name) m ∧ Placed name ((s.after t).after m) ps := by
  cases s with
  | fresh => rfl
  | used => rfl
  | opened => exact absurd rfl hs

theorem openingTag_ne_nil (name : Text) : openingTag name ≠ [] := by
  have hopen : openingTag name = '<' :: ("scalar name=\"".toList ++ (name ++ openingTail)) := rfl
  rw [hopen]
  exact List.cons_ne_nil _ _

theorem closingTag_ne_openingTag (name : Text) : closingTag ≠ openingTag name := by
  have hclose : closingTag = '<' :: '/' :: "scalar>".toList := rfl
  have hopen : openingTag name = '<' :: 's' :: ("calar name=\"".toList ++ (name ++ openingTail)) := rfl
  rw [hclose, hopen]
  intro h
  injection h with _ h
  injection h with h _
  exact absurd h (by decide)

/-- **The edit of lines replaces the characters behind the start tags.**  Behind such a tag the
statement starts at the tag, which the edit has not passed before it sees the closing tag. -/
theorem edit_placed {name : Text} (hname : PlainName name) (v last : Text) (hlast : '<' ∉ last)
    {ps : List (Text × Text)} (hps : ∀ p ∈ ps, '<' ∉ p.1 ∧ IsMarkup p.2) {s : LineState}
    (h : Placed name s ps) :
    if s = .opened then
      lineEdit (openingTag name) '<' closingRest v true (openingTag name ++ Pieces.text (ps, last))
        = openingTag name ++ Pieces.text (retext (asking [(name, v)]) (some v) ps, last)
    else
      lineEdit (openingTag name) '<' closingRest v s.isFresh (Pieces.text (ps, last))
        = Pieces.text (retext (asking [(name, v)]) none ps, last) := by
  induction ps generalizing s with
  | nil =>
      have hopened : s ≠ .opened := h
      rw [if_neg hopened]
      have hno : NoStart (openingTag name) last [] := noStart_chars hlast []
      have hskip := lineEdit_skip '<' closingRest v hno s.isFresh
      rw [lineEdit_nil, List.append_nil] at hskip
      exact hskip
  | cons p ps ih =>
      obtain ⟨t, m⟩ := p
      have ht : '<' ∉ t := (hps (t, m) List.mem_cons_self).1
      have hm : IsMarkup m := (hps (t, m) List.mem_cons_self).2
      have ih' := @ih fun q hq => hps q (List.mem_cons_of_mem _ hq)
      have hnow : ∀ now, Pieces.text (retext (asking [(name, v)]) now ((t, m) :: ps), last)
          = now.getD t ++ (m ++ Pieces.text (retext (asking [(name, v)])
              (asking [(name, v)] m) ps, last)) := fun now => pieces_text_cons _ _ _ _
      rw [pieces_text_cons, hnow, hnow]
      by_cases hs : s = .opened
      · subst hs
        obtain ⟨hline, hclose, hrest⟩ := h
        have hnext := ih' hrest
        rw [if_neg (by decide)] at hnext
        have hasked : asking [(name, v)] m = none := by
          rw [asking_single, hclose, if_neg (closingTag_ne_openingTag name)]
        rw [if_pos rfl, hasked, Option.getD_some, hclose]
        show lineEdit _ _ _ v true (openingTag name ++ (t ++ ('<' :: closingRest ++ _))) = _
        rw [lineEdit_field v (newline_not_mem_openingTag hname) (by decide) ht hline]
        exact congrArg (fun w => openingTag name ++ (v ++ ('<' :: closingRest ++ w))) hnext
      · rw [placed_cons hs] at h
        rw [if_neg hs, lineEdit_skip '<' closingRest v (noStart_chars ht _), ← isFresh_after]
        apply congrArg (t ++ ·)
        by_cases hopen : m = openingTag name
        · rw [if_pos hopen] at h
          have hnext := ih' h.2
          rw [if_pos rfl] at hnext
          rw [h.1, asking_single, if_pos hopen, hopen]
          exact hnext
        · rw [if_neg hopen] at h
          obtain ⟨hno, hrest⟩ := h
          have hnext := ih' hrest
          rw [if_neg (LineState.after_ne_opened (LineState.after_ne_opened hs t) m)] at hnext
          rw [asking_single, if_neg hopen, lineEdit_skip '<' closingRest v
            (noStart_markup hname hm hno _), ← isFresh_after]
          exact congrArg (m ++ ·) hnext

/-! ## The edits one after the other -/

theorem openingTag_injective {name name' : Text} (h : openingTag name = openingTag name') :
    name = name' := by
  have hmiddle : name ++ openingTail = name' ++ openingTail := List.append_cancel_left h
  exact List.append_cancel_right hmiddle

theorem caller_some {calls : List (Text × Text)} {m : Text} {c : Text × Text}
    (h : caller calls m = some c) : c ∈ calls ∧ m = openingTag c.1 := by
  unfold caller at h
  have hfound := List.find?_some h
  exact ⟨List.mem_of_find?_eq_some h, of_decide_eq_true hfound⟩

theorem asking_some {calls : List (Text × Text)} {m v : Text} (h : asking calls m = some v) :
    ∃ name, (name, v) ∈ calls ∧ m = openingTag name := by
  obtain ⟨c, hc, hv⟩ := Option.map_eq_some_iff.mp h
  obtain ⟨hmem, hm⟩ := caller_some hc
  exact ⟨c.1, hv ▸ hmem, hm⟩

/-- Another call asks behind other start tags. -/
theorem asking_append {calls : List (Text × Text)} {c : Text × Text}
    (hnew : c.1 ∉ calls.map Prod.fst) (m : Text) :
    asking (calls ++ [c]) m = (asking calls m).or (asking [c] m) ∧
      (asking calls m = none ∨ asking [c] m = none) := by
  constructor
  · unfold asking caller
    rw [List.find?_append, Option.map_or]
  · cases hfirst : asking calls m with
    | none => exact Or.inl rfl
    | some v =>
        cases hsecond : asking [c] m with
        | none => exact Or.inr rfl
        | some w =>
            obtain ⟨name, hmem, hm⟩ := asking_some hfirst
            obtain ⟨name', hmem', hm'⟩ := asking_some hsecond
            have hname : name = name' := openingTag_injective (hm.symm.trans hm')
            rw [List.mem_singleton] at hmem'
            exact absurd (List.mem_map.mpr ⟨(name, v), hmem, by rw [hname, ← hmem']⟩) hnew

/-- Replacing the characters for some calls and then for another. -/
theorem retext_retext {calls : List (Text × Text)} {c : Text × Text}
    (hnew : c.1 ∉ calls.map Prod.fst) (ps : List (Text × Text)) {now now' : Option Text}
    (hone : now = none ∨ now' = none) :
    retext (asking [c]) now' (retext (asking calls) now ps)
      = retext (asking (calls ++ [c])) (now.or now') ps := by
  induction ps generalizing now now' with
  | nil => rfl
  | cons p ps ih =>
      obtain ⟨t, m⟩ := p
      obtain ⟨happend, hasked⟩ := asking_append hnew m
      have hchars : now'.getD (now.getD t) = (now.or now').getD t := by
        rcases hone with rfl | rfl
        · rfl
        · cases now <;> rfl
      rw [retext, retext, retext, ih hasked, happend, hchars]

/-- Nothing is replaced where nothing is asked for. -/
theorem retext_none {asked : Text → Option Text} {ps : List (Text × Text)}
    (h : ∀ p ∈ ps, asked p.2 = none) : retext asked none ps = ps := by
  induction ps with
  | nil => rfl
  | cons p ps ih =>
      obtain ⟨t, m⟩ := p
      rw [retext, h (t, m) List.mem_cons_self, ih fun q hq => h q (List.mem_cons_of_mem _ hq)]
      rfl

/-- The pieces are in order for all calls; `now` is the call whose start tag has just been read. -/
def AllPlaced (calls : List (Text × Text)) (now : Option (Text × Text)) (ps : List (Text × Text)) :
    Prop :=
  ∀ c ∈ calls, ∃ s, Placed c.1 s ps ∧ (now = some c → s = .opened)

theorem placed_tail {name t m : Text} {s : LineState} {ps : List (Text × Text)}
    (h : Placed name s ((t, m) :: ps)) :
    ∃ s', Placed name s' ps ∧ (m = openingTag name → s' = .opened) := by
  by_cases hs : s = .opened
  · subst hs
    obtain ⟨_, hclose, hrest⟩ := h
    exact ⟨.used, hrest, fun hm => absurd (hclose.symm.trans hm) (closingTag_ne_openingTag name)⟩
  · rw [placed_cons hs] at h
    split at h
    · exact ⟨.opened, h.2, fun _ => rfl⟩
    · rename_i hm
      exact ⟨_, h.2, fun heq => absurd heq hm⟩

theorem AllPlaced.tail {calls : List (Text × Text)} {now : Option (Text × Text)} {t m : Text}
    {ps : List (Text × Text)} (h : AllPlaced calls now ((t, m) :: ps)) :
    AllPlaced calls (caller calls m) ps := by
  intro c hc
  obtain ⟨s, hs, _⟩ := h c hc
  obtain ⟨s', hs', hopened⟩ := placed_tail hs
  exact ⟨s', hs', fun hcaller => hopened (caller_some hcaller).2⟩

/-- Behind a start tag stand the characters of one line and the closing tag. -/
theorem AllPlaced.opened {calls : List (Text × Text)} {c : Text × Text} {ps : List (Text × Text)}
    (h : AllPlaced calls (some c) ps) (hc : c ∈ calls) : Placed c.1 .opened ps := by
  obtain ⟨s, hs, hopened⟩ := h c hc
  rw [hopened rfl] at hs
  exact hs

/-- Every start tag that asks for characters is closed at once. -/
theorem leaves_asking {calls : List (Text × Text)} {now : Option (Text × Text)}
    {ps : List (Text × Text)} (hnow : ∀ c, now = some c → c ∈ calls) (h : AllPlaced calls now ps) :
    Leaves (asking calls) now.isSome ps := by
  induction ps generalizing now with
  | nil =>
      cases now with
      | none => rfl
      | some c => exact absurd rfl (h.opened (hnow c rfl))
  | cons p ps ih =>
      obtain ⟨t, m⟩ := p
      constructor
      · intro hopened
        obtain ⟨c, hc⟩ := Option.isSome_iff_exists.mp hopened
        subst hc
        obtain ⟨_, hclose, _⟩ := h.opened (hnow c rfl)
        exact ⟨"scalar".toList, by rw [hclose]; decide⟩
      · have hrest := ih (fun c hc => (caller_some hc).1) h.tail
        unfold asking at hrest ⊢
        rw [Option.isSome_map]
        exact hrest

/-- The calls keep the lines, and with them the places of the scalars. -/
theorem placed_retext {calls : List (Text × Text)} {now : Option (Text × Text)} {name : Text}
    {s : LineState} {ps : List (Text × Text)} (hnow : ∀ c, now = some c → c ∈ calls ∧ '\n' ∉ c.2)
    (hcalls : ∀ c ∈ calls, (∃ p ∈ ps, p.2 = openingTag c.1) → '\n' ∉ c.2)
    (h : AllPlaced calls now ps) (hplaced : Placed name s ps) :
    Placed name s (retext (asking calls) (now.map Prod.snd) ps) := by
  induction ps generalizing now s with
  | nil => exact hplaced
  | cons p ps ih =>
      obtain ⟨t, m⟩ := p
      have hline : '\n' ∈ (now.map Prod.snd).getD t ↔ '\n' ∈ t := by
        cases now with
        | none => rfl
        | some c =>
            obtain ⟨hc, hvalue⟩ := hnow c rfl
            exact iff_of_false hvalue (h.opened hc).1
      have hnow' : ∀ c, caller calls m = some c → c ∈ calls ∧ '\n' ∉ c.2 := by
        intro c hc
        obtain ⟨hmem, hm⟩ := caller_some hc
        exact ⟨hmem, hcalls c hmem ⟨(t, m), List.mem_cons_self, hm⟩⟩
      have ih' : ∀ {s}, Placed name s ps → Placed name s (retext (asking calls) (asking calls m) ps) :=
        fun hs => ih hnow' (fun c hc hp => hcalls c hc (by
          obtain ⟨q, hq, hm⟩ := hp
          exact ⟨q, List.mem_cons_of_mem _ hq, hm⟩)) h.tail hs
      rw [retext]
      by_cases hs : s = .opened
      · subst hs
        obtain ⟨hnl, hclose, hrest⟩ := hplaced
        exact ⟨fun hmem => hnl (hline.mp hmem), hclose, ih' hrest⟩
      · rw [placed_cons hs] at hplaced ⊢
        have hafter : s.after ((now.map Prod.snd).getD t) = s.after t := by
          unfold LineState.after
          simp only [hline]
        rw [hafter]
        split at hplaced
        · rename_i hm
          rw [if_pos hm]
          exact ⟨hplaced.1, ih' hplaced.2⟩
        · rename_i hm
          rw [if_neg hm]
          exact ⟨hplaced.1, ih' hplaced.2⟩

/-- A name whose start tag stands among the pieces. -/
def Occurring (name : Text) (ps : List (Text × Text)) : Prop := ∃ p ∈ ps, p.2 = openingTag name

/-- Calls that a document, cut into pieces, is in order for. -/
structure EditsFor (calls : List (Text × Text)) (ps : List (Text × Text)) : Prop where
  plain : ∀ c ∈ calls, PlainName c.1
  placed : ∀ c ∈ calls, Placed c.1 .fresh ps
  distinct : (calls.map Prod.fst).Nodup
  trimmed : ∀ c ∈ calls, dropTrailingNewlines c.2 = c.2
  data : ∀ c ∈ calls, Occurring c.1 ps → PlainData c.2

theorem EditsFor.mono {calls more : List (Text × Text)} {ps : List (Text × Text)}
    (h : EditsFor calls ps) (hsub : more.Sublist calls) : EditsFor more ps where
  plain := fun c hc => h.plain c (hsub.subset hc)
  placed := fun c hc => h.placed c (hsub.subset hc)
  distinct := (hsub.map Prod.fst).nodup h.distinct
  trimmed := fun c hc => h.trimmed c (hsub.subset hc)
  data := fun c hc => h.data c (hsub.subset hc)

theorem EditsFor.allPlaced {calls : List (Text × Text)} {ps : List (Text × Text)}
    (h : EditsFor calls ps) : AllPlaced calls none ps :=
  fun c hc => ⟨.fresh, h.placed c hc, fun hnone => absurd hnone (by simp)⟩

theorem occurring_retext {asked : Text → Option Text} {now : Option Text} {name : Text}
    {ps : List (Text × Text)} (h : Occurring name ps) : Occurring name (retext asked now ps) := by
  induction ps generalizing now with
  | nil =>
      obtain ⟨p, hp, _⟩ := h
      exact absurd hp List.not_mem_nil
  | cons q ps ih =>
      obtain ⟨p, hp, hm⟩ := h
      rcases List.mem_cons.mp hp with rfl | hp
      · exact ⟨_, List.mem_cons_self, hm⟩
      · obtain ⟨r, hr, hm'⟩ := @ih (asked q.2) ⟨p, hp, hm⟩
        exact ⟨r, List.mem_cons_of_mem _ hr, hm'⟩

section Document

variable {mark last : Text} {ps : List (Text × Text)}

/-- The characters and markup of changed pieces are those of pieces. -/
theorem good_retext {calls : List (Text × Text)} (hcalls : EditsFor calls ps)
    (hps : ∀ p ∈ ps, '<' ∉ p.1 ∧ IsMarkup p.2) :
    ∀ p ∈ retext (asking calls) none ps, '<' ∉ p.1 ∧ IsMarkup p.2 := by
  intro p hp
  obtain ⟨q, hq, hmarkup, hchars⟩ := mem_retext (asking calls) hp
  rw [hmarkup]
  refine ⟨?_, (hps q hq).2⟩
  rcases hchars with hsame | hnone | ⟨r, hr, hasked⟩
  · rw [hsame]
    exact (hps q hq).1
  · exact absurd hnone (by simp)
  · obtain ⟨name, hmem, hopen⟩ := asking_some hasked
    exact (hcalls.data _ hmem ⟨r, hr, hopen⟩).no_markup

theorem edit_document {name v : Text} (hname : PlainName name) (hmark : '<' ∉ mark ∧ '\n' ∉ mark)
    (hps : ∀ p ∈ ps, '<' ∉ p.1 ∧ IsMarkup p.2) (hlast : '<' ∉ last)
    (hplaced : Placed name .fresh ps) :
    mapLines (editLine name v) (mark ++ Pieces.text (ps, last))
      = mark ++ Pieces.text (retext (asking [(name, v)]) none ps, last) := by
  have hfresh : (true || decide ('\n' ∈ mark)) = true := rfl
  rw [← lineEdit_fresh, lineEdit_skip '<' closingRest v (noStart_chars hmark.1 _), hfresh]
  have hedit := edit_placed hname v last hlast hps hplaced
  rw [if_neg (by decide)] at hedit
  exact congrArg (mark ++ ·) hedit

/-- A start tag among the pieces stands on a line. -/
theorem occurs_line {name : Text} (hname : PlainName name) (h : Occurring name ps) :
    ∃ l ∈ lines (mark ++ Pieces.text (ps, last)), Occurs (openingTag name) l := by
  obtain ⟨p, hp, hm⟩ := h
  have hocc : Occurs (openingTag name) (mark ++ Pieces.text (ps, last)) := by
    obtain ⟨before, after, hsplit⟩ := List.append_of_mem hp
    refine ⟨mark ++ (before.flatMap (fun q => q.1 ++ q.2) ++ p.1), Pieces.text (after, last), ?_⟩
    rw [← hm, hsplit]
    simp [Pieces.text]
  exact hocc.in_line (newline_not_mem_openingTag hname) (openingTag_ne_nil name)

/-- One call that ends without an error.  A value of several lines ends in one unless there is no
start tag of the name, and then nothing is replaced. -/
theorem setConfigScalar_document {c : Text × Text} {config : Text} (hname : PlainName c.1)
    (hmark : '<' ∉ mark ∧ '\n' ∉ mark) (hps : ∀ p ∈ ps, '<' ∉ p.1 ∧ IsMarkup p.2) (hlast : '<' ∉ last)
    (hplaced : Placed c.1 .fresh ps) (htrimmed : dropTrailingNewlines c.2 = c.2)
    (h : setConfigScalar c.1 c.2 (mark ++ Pieces.text (ps, last)) = .ok config) :
    config = mark ++ Pieces.text (retext (asking [c]) none ps, last) ∧
      (Occurring c.1 ps → '\n' ∉ c.2) := by
  by_cases hline : '\n' ∈ c.2
  · have habsent : ¬ ∃ l ∈ lines (mark ++ Pieces.text (ps, last)), Occurs (openingTag c.1) l := by
      intro hpresent
      rw [setConfigScalar_newline hname hline htrimmed hpresent] at h
      exact absurd h (by simp)
    have hnone : ¬ Occurring c.1 ps := fun hocc => habsent (occurs_line hname hocc)
    have hself : retext (asking [c]) none ps = ps := by
      apply retext_none
      intro p hp
      rw [asking_single]
      exact if_neg fun hm => hnone ⟨p, hp, hm⟩
    rw [setConfigScalar_absent hname habsent] at h
    rw [hself]
    exact ⟨(Except.ok.inj h).symm, fun hocc => absurd hocc hnone⟩
  · rw [setConfigScalar_eq hname hline, edit_document hname hmark hps hlast hplaced] at h
    exact ⟨(Except.ok.inj h).symm, fun _ => hline⟩

/-- **A sequence of edits that ends without an error replaces the characters behind the start
tags.** -/
theorem editAll_document {done calls : List (Text × Text)} {edited : Text}
    (hcalls : EditsFor (done ++ calls) ps) (hmark : '<' ∉ mark ∧ '\n' ∉ mark)
    (hps : ∀ p ∈ ps, '<' ∉ p.1 ∧ IsMarkup p.2) (hlast : '<' ∉ last)
    (hdone : ∀ c ∈ done, Occurring c.1 ps → '\n' ∉ c.2)
    (h : editAll calls (mark ++ Pieces.text (retext (asking done) none ps, last)) = .ok edited) :
    edited = mark ++ Pieces.text (retext (asking (done ++ calls)) none ps, last) := by
  induction calls generalizing done with
  | nil =>
      rw [List.append_nil]
      exact (Except.ok.inj h).symm
  | cons c calls ih =>
      have hfirst : EditsFor done ps := hcalls.mono (List.sublist_append_left _ _)
      have hc : c ∈ done ++ c :: calls := List.mem_append_right _ List.mem_cons_self
      have hnew : c.1 ∉ done.map Prod.fst := by
        have hnodup := hcalls.distinct
        rw [List.map_append, List.map_cons] at hnodup
        exact fun hmem => (List.nodup_append.mp hnodup).2.2 _ hmem _ List.mem_cons_self rfl
      have hplaced : Placed c.1 .fresh (retext (asking done) none ps) :=
        placed_retext (fun d hd => absurd hd (by simp)) hdone hfirst.allPlaced (hcalls.placed c hc)
      have hboth := retext_retext hnew ps (Or.inl rfl : (none : Option Text) = none ∨ none = none)
      rw [Option.or_none] at hboth
      obtain ⟨config, hset, h⟩ := except_bind_ok (show
        (setConfigScalar c.1 c.2 _ >>= fun config => editAll calls config) = .ok edited from h)
      obtain ⟨hconfig, hline⟩ := setConfigScalar_document (hcalls.plain c hc) hmark
        (good_retext hfirst hps) hlast hplaced (hcalls.trimmed c hc) hset
      rw [hboth] at hconfig
      have hrest : EditsFor ((done ++ [c]) ++ calls) ps := by
        rw [List.append_assoc]
        exact hcalls
      have hdone' : ∀ d ∈ done ++ [c], Occurring d.1 ps → '\n' ∉ d.2 := by
        intro d hd hocc
        rcases List.mem_append.mp hd with hd | hd
        · exact hdone d hd hocc
        · rw [List.mem_singleton.mp hd] at hocc ⊢
          exact hline (occurring_retext hocc)
      rw [hconfig] at h
      rw [ih hrest hdone' h, List.append_assoc]
      rfl

end Document

end JosfraPge.Launcher.ScalarEdits
