import JosfraPge.Foundation.XmlDocument
import JosfraPge.Launcher.ScalarEdits

/-!
# The launcher's edits of an encoded document

The editor works on the text of a file, the reader on what that text stands for in the encoding of the
document.  Tags and line ends are the same in both.

* `placed_decode`: scalars in the editor's form are so in the file;
* `decodePieces_retext`: paths written into the file are written into what it stands for.
-/

namespace JosfraPge.Launcher.EncodedEdits

open JosfraPge.Foundation.LineText
open JosfraPge.Foundation.XmlScan
open JosfraPge.Foundation.XmlEncoding
open JosfraPge.Foundation.XmlTree
open JosfraPge.Foundation.XmlDocument
open JosfraPge.Foundation.XmlRetext
open JosfraPge.Launcher.SetConfigScalar
open JosfraPge.Launcher.ScalarEdits

/-- A name of characters of markup. -/
def SyntaxName (name : Text) : Prop := ∀ c ∈ name, isSyntaxChar c = true

instance (name : Text) : Decidable (SyntaxName name) :=
  inferInstanceAs (Decidable (∀ c ∈ name, isSyntaxChar c = true))

theorem openingTag_syntaxText {name : Text} (hname : SyntaxName name) : SyntaxName (openingTag name) := by
  have hends : SyntaxName openingHead ∧ SyntaxName openingTail := by decide
  intro c hc
  rcases List.mem_append.1 hc with hc | hc
  · exact hends.1 c hc
  · rcases List.mem_append.1 hc with hc | hc
    · exact hname c hc
    · exact hends.2 c hc

theorem closingTag_syntax : SyntaxName closingTag := by
  decide

section Pieces

variable {enc : Encoding} {name m m' t t' : Text} {raw ps : List (Text × Text)}

theorem openingTag_decode (hname : SyntaxName name) (h : enc.decode m = some m') :
    m' = openingTag name ↔ m = openingTag name := by
  constructor
  · rintro rfl
    exact decode_eq_syntax (openingTag_syntaxText hname) h
  · rintro rfl
    exact Option.some.inj (h.symm.trans (decode_syntaxText (openingTag_syntaxText hname)))

theorem after_decode (h : enc.decode t = some t') (s : LineState) : s.after t' = s.after t := by
  have hline : '\n' ∈ t' ↔ '\n' ∈ t := mem_decode rfl h
  unfold LineState.after
  simp only [hline]

/-- **Scalars in the editor's form are so in the file.** -/
theorem placed_decode (hname : SyntaxName name) (h : decodePieces enc raw = some ps) {s : LineState}
    (hplaced : Placed name s ps) : Placed name s raw := by
  induction raw generalizing ps s with
  | nil =>
      obtain rfl := Option.some.inj h
      exact hplaced
  | cons p raw ih =>
      obtain ⟨t', m', ps', ht, hm, hps, rfl⟩ := decodePieces_cons.1 h
      by_cases hs : s = .opened
      · subst hs
        obtain ⟨hline, hclose, hrest⟩ := hplaced
        rw [hclose] at hm
        exact ⟨fun hmem => hline ((mem_decode rfl ht).2 hmem), decode_eq_syntax closingTag_syntax hm,
          ih hps hrest⟩
      · rw [placed_cons hs] at hplaced ⊢
        by_cases hopen : p.2 = openingTag name
        · rw [if_pos ((openingTag_decode hname hm).2 hopen), after_decode ht] at hplaced
          rw [if_pos hopen]
          exact ⟨hplaced.1, ih hps hplaced.2⟩
        · rw [if_neg fun heq => hopen ((openingTag_decode hname hm).1 heq), after_decode ht,
            after_decode hm, occurs_decode (openingTag_syntaxText hname) hm] at hplaced
          rw [if_neg hopen]
          exact ⟨hplaced.1, ih hps hplaced.2⟩

theorem occurring_decode (hname : SyntaxName name) (h : decodePieces enc raw = some ps) :
    Occurring name raw ↔ Occurring name ps := by
  unfold Occurring
  induction raw generalizing ps with
  | nil =>
      obtain rfl := Option.some.inj h
      rfl
  | cons p raw ih =>
      obtain ⟨t', m', ps', -, hm, hps, rfl⟩ := decodePieces_cons.1 h
      rw [List.exists_mem_cons_iff, List.exists_mem_cons_iff, ih hps, openingTag_decode hname hm]

variable {calls : List (Text × Text)}

theorem asking_decode (hcalls : ∀ c ∈ calls, SyntaxName c.1) (h : enc.decode m = some m') :
    asking calls m' = asking calls m := by
  unfold asking caller
  apply congrArg (Option.map Prod.snd)
  induction calls with
  | nil => rfl
  | cons c calls ih =>
      have hsame := openingTag_decode (hcalls c List.mem_cons_self) h
      rw [List.find?_cons, List.find?_cons, ih fun d hd => hcalls d (List.mem_cons_of_mem _ hd)]
      simp only [hsame]

/-- **Texts that are themselves in the encoding** are written into the file and into what it stands for
alike. -/
theorem decodePieces_retext (hcalls : ∀ c ∈ calls, SyntaxName c.1)
    (h : decodePieces enc raw = some ps)
    (hvalues : ∀ p ∈ raw, ∀ v, asking calls p.2 = some v → enc.decode v = some v) {now : Option Text}
    (hnow : ∀ v, now = some v → enc.decode v = some v) :
    decodePieces enc (retext (asking calls) now raw) = some (retext (asking calls) now ps) := by
  induction raw generalizing ps now with
  | nil =>
      obtain rfl := Option.some.inj h
      rfl
  | cons p raw ih =>
      obtain ⟨t', m', ps', ht, hm, hps, rfl⟩ := decodePieces_cons.1 h
      have hrest := ih hps (fun q hq => hvalues q (List.mem_cons_of_mem _ hq))
        (hvalues p List.mem_cons_self)
      have hchars : enc.decode (now.getD p.1) = some (now.getD t') := by
        cases now with
        | none => exact ht
        | some v => exact hnow v rfl
      refine decodePieces_cons.2 ⟨_, _, _, hchars, hm, hrest, ?_⟩
      rw [retext, asking_decode hcalls hm]

/-- New texts stand behind the declaration. -/
theorem encodingOf_retext (codecs : Codecs) (asked : Text → Option Text) :
    encodingOf codecs (retext asked none ps) = encodingOf codecs ps := by
  cases ps with
  | nil => rfl
  | cons p ps =>
      obtain ⟨t, m⟩ := p
      cases t <;> rfl

end Pieces

end JosfraPge.Launcher.EncodedEdits
