import JosfraPge.Foundation.XmlEncoding
import JosfraPge.Foundation.XmlTree

/-!
# XML 1.0, documents

`readWith` reads a document: it cuts it into pieces, decodes them as the XML declaration says, carries out
what the document type declaration declares and builds the tree.  Encodings of single bytes and the
declarations of a document type come from a `Reader`; `readDocument` is the one without any.

* `decodedPieces_eq`: the pieces of a document in its encoding;
* `carryOut_plain`: a document that declares nothing stands for itself;
* `readWith_noEmptyText`: no text of a tree that was read is empty.

A document in UTF-16 is outside this reader and refused.
-/

namespace JosfraPge.Foundation.XmlDocument

open JosfraPge.Foundation.LineText
open JosfraPge.Foundation.XmlScan
open JosfraPge.Foundation.XmlEncoding
open JosfraPge.Foundation.XmlTree

/-! ## Encodings -/

/-- Drop a byte order mark. -/
def dropMark : Text → Text
  | c :: cs => if c = '\uFEFF' then cs else c :: cs
  | [] => []

/-- The encoding of a document, which its pieces declare at the very start. -/
def encodingOf (codecs : Codecs) : List (Text × Text) → Option Encoding
  | ([], m) :: _ =>
      if isXmlDecl m then
        (declaredEncoding m).bind fun name => name.elim (some .utf8) (encodingNamed codecs)
      else some .utf8
  | _ => some .utf8

/-- Decode one piece after the other. -/
def decodePieces (enc : Encoding) : List (Text × Text) → Option (List (Text × Text))
  | [] => some []
  | (t, m) :: ps => do
      let t' ← enc.decode t
      let m' ← enc.decode m
      let ps' ← decodePieces enc ps
      return (t', m') :: ps'

/-- The pieces of a document in its encoding. -/
def decodedPieces (codecs : Codecs) (doc : Text) : Option Pieces := do
  let (raw, rawLast) ← scan (.chars []) (dropMark doc)
  let enc ← encodingOf codecs raw
  let ps ← decodePieces enc raw
  let last ← enc.decode rawLast
  return (ps, last)

theorem decodePieces_cons {enc : Encoding} {t m : Text} {ps qs : List (Text × Text)} :
    decodePieces enc ((t, m) :: ps) = some qs ↔
      ∃ t' m' ps', enc.decode t = some t' ∧ enc.decode m = some m' ∧ decodePieces enc ps = some ps' ∧
        (t', m') :: ps' = qs := by
  constructor
  · intro h
    obtain ⟨t', ht, h⟩ := Option.bind_eq_some_iff.1 h
    obtain ⟨m', hm, h⟩ := Option.bind_eq_some_iff.1 h
    obtain ⟨ps', hps, h⟩ := Option.bind_eq_some_iff.1 h
    exact ⟨t', m', ps', ht, hm, hps, Option.some.inj h⟩
  · rintro ⟨t', m', ps', ht, hm, hps, rfl⟩
    rw [decodePieces, ht, hm, hps]
    rfl

theorem decodePieces_utf8 (ps : List (Text × Text)) : decodePieces .utf8 ps = some ps := by
  induction ps with
  | nil => rfl
  | cons p ps ih => exact decodePieces_cons.2 ⟨p.1, p.2, ps, decode_utf8 p.1, decode_utf8 p.2, ih, rfl⟩

theorem decodedPieces_eq {codecs : Codecs} {doc : Text} {p : Pieces} :
    decodedPieces codecs doc = some p ↔
      ∃ raw rawLast enc, scan (.chars []) (dropMark doc) = some (raw, rawLast) ∧
        encodingOf codecs raw = some enc ∧ decodePieces enc raw = some p.1 ∧
        enc.decode rawLast = some p.2 := by
  constructor
  · intro h
    obtain ⟨⟨raw, rawLast⟩, hscan, h⟩ := Option.bind_eq_some_iff.1 h
    obtain ⟨enc, henc, h⟩ := Option.bind_eq_some_iff.1 h
    obtain ⟨ps, hps, h⟩ := Option.bind_eq_some_iff.1 h
    obtain ⟨last, hlast, h⟩ := Option.bind_eq_some_iff.1 h
    obtain rfl := Option.some.inj h
    exact ⟨raw, rawLast, enc, hscan, henc, hps, hlast⟩
  · rintro ⟨raw, rawLast, enc, hscan, henc, hps, hlast⟩
    rw [decodedPieces, hscan, Option.bind_eq_bind, Option.bind_some]
    show (encodingOf codecs raw >>= _) = _
    rw [henc, Option.bind_eq_bind, Option.bind_some, hps, Option.bind_eq_bind, Option.bind_some, hlast]
    rfl

/-- A document in UTF-8 is read as it is. -/
theorem decodedPieces_utf8 {codecs : Codecs} {doc : Text} {p : Pieces}
    (hscan : scan (.chars []) (dropMark doc) = some p) (henc : encodingOf codecs p.1 = some .utf8) :
    decodedPieces codecs doc = some p :=
  decodedPieces_eq.2 ⟨p.1, p.2, .utf8, hscan, henc, decodePieces_utf8 p.1, decode_utf8 p.2⟩

/-! ## Declarations -/

/-- What a document type declaration declares: how a document without it says the same, with the texts of
entities in place of the references, the values of attributes by their types and the default attributes
written out. -/
structure Declarations where
  /-- Characters between markup; an entity can stand for markup. -/
  chars : Text → Option Pieces
  startTag : Text → Option Text
  /-- Only references are replaced. -/
  chars_plain : ∀ t, '&' ∉ t → chars t = some ([], t)
  /-- A start tag keeps its name, and the attributes whose values hold no reference and no space. -/
  startTag_keeps : ∀ {m m' name : Text} {attrs : List (Text × Text)} {isEmpty : Bool},
    '&' ∉ m → parseMarkup m = some (.start name attrs isEmpty) → (∀ a ∈ attrs, ' ' ∉ a.2) →
      startTag m = some m' →
        ∃ attrs', parseMarkup m' = some (.start name attrs' isEmpty) ∧ attrs ⊆ attrs'

/-- Nothing is declared. -/
def noDeclarations : Declarations where
  chars := fun t => some ([], t)
  startTag := some
  chars_plain := fun _ _ => rfl
  startTag_keeps := by
    intro m m' name attrs isEmpty _ hm _ hsame
    obtain rfl := Option.some.inj hsame
    exact ⟨attrs, hm, List.Subset.refl attrs⟩

def isStartTag (m : Text) : Bool :=
  !(decide ("<!".toList <+: m) || decide ("<?".toList <+: m) || decide ("</".toList <+: m))

/-- Does this markup declare more than the name of the root? -/
def declares (m : Text) : Bool :=
  decide ("<!DOCTYPE".toList <+: m) &&
    (takeName (skipSpace (between 9 1 m))).any fun n => decide (skipSpace n.2 ≠ [])

section CarryOut

variable (d : Declarations)

/-- What a piece of markup stands for. -/
def Declarations.markup (m : Text) : Option Text := if isStartTag m then d.startTag m else some m

/-- Write out what is declared, one piece after the other. -/
def Declarations.carryOut : List (Text × Text) → Option (List (Text × Text))
  | [] => some []
  | (t, m) :: ps => do
      let (es, t') ← d.chars t
      let m' ← d.markup m
      let qs ← Declarations.carryOut ps
      return es ++ (t', m') :: qs

end CarryOut

/-! ## Reading -/

/-- What a reader has beside what XML asks of every one. -/
structure Reader where
  codecs : Codecs
  /-- What a document type declaration with an internal subset or an external identifier declares, `none`
  when it is not well formed. -/
  declarations : Text → Option Declarations

def plainReader : Reader := ⟨noCodecs, fun _ => none⟩

/-- The declarations of a document in pieces. -/
def declarationsOf (reader : Reader) : List (Text × Text) → Option Declarations
  | [] => some noDeclarations
  | (_, m) :: ps => if declares m then reader.declarations m else declarationsOf reader ps

/-- Read a document, `none` when it is not well formed. -/
def readWith (reader : Reader) (doc : Text) : Option Element := do
  let p ← decodedPieces reader.codecs doc
  if p.text.all isXmlChar then
    let d ← declarationsOf reader p.1
    let qs ← d.carryOut p.1
    readPieces (qs, p.2)
  else none

/-- Read a document with what every reader has. -/
def readDocument (doc : Text) : Option Element := readWith plainReader doc

theorem readWith_iff {reader : Reader} {doc : Text} {root : Element} :
    readWith reader doc = some root ↔
      ∃ p d qs, decodedPieces reader.codecs doc = some p ∧ p.text.all isXmlChar = true ∧
        declarationsOf reader p.1 = some d ∧ d.carryOut p.1 = some qs ∧
        readPieces (qs, p.2) = some root := by
  constructor
  · intro h
    obtain ⟨p, hpieces, h⟩ := Option.bind_eq_some_iff.1 h
    split at h
    · rename_i hchars
      obtain ⟨d, hd, h⟩ := Option.bind_eq_some_iff.1 h
      obtain ⟨qs, hqs, h⟩ := Option.bind_eq_some_iff.1 h
      exact ⟨p, d, qs, hpieces, hchars, hd, hqs, h⟩
    · exact absurd h (by simp)
  · rintro ⟨p, d, qs, hpieces, hchars, hd, hqs, h⟩
    rw [readWith, hpieces, Option.bind_eq_bind, Option.bind_some, if_pos hchars, hd, Option.bind_eq_bind,
      Option.bind_some, hqs, Option.bind_eq_bind, Option.bind_some, h]

theorem carryOut_cons {d : Declarations} {t m : Text} {ps qs : List (Text × Text)} :
    d.carryOut ((t, m) :: ps) = some qs ↔
      ∃ es t' m' qs', d.chars t = some (es, t') ∧ d.markup m = some m' ∧ d.carryOut ps = some qs' ∧
        es ++ (t', m') :: qs' = qs := by
  constructor
  · intro h
    obtain ⟨⟨es, t'⟩, ht, h⟩ := Option.bind_eq_some_iff.1 h
    obtain ⟨m', hm, h⟩ := Option.bind_eq_some_iff.1 h
    obtain ⟨qs', hps, h⟩ := Option.bind_eq_some_iff.1 h
    exact ⟨es, t', m', qs', ht, hm, hps, Option.some.inj h⟩
  · rintro ⟨es, t', m', qs', ht, hm, hps, rfl⟩
    rw [Declarations.carryOut, ht, hm, hps]
    rfl

theorem carryOut_plain (ps : List (Text × Text)) : noDeclarations.carryOut ps = some ps := by
  induction ps with
  | nil => rfl
  | cons p ps ih =>
      have hmarkup : noDeclarations.markup p.2 = some p.2 := ite_self _
      exact carryOut_cons.2 ⟨[], p.1, p.2, ps, rfl, hmarkup, ih, rfl⟩

theorem declarationsOf_plain {reader : Reader} {ps : List (Text × Text)}
    (h : ∀ p ∈ ps, declares p.2 = false) : declarationsOf reader ps = some noDeclarations := by
  induction ps with
  | nil => rfl
  | cons p ps ih =>
      obtain ⟨t, m⟩ := p
      have hm : declares m = false := h _ List.mem_cons_self
      rw [declarationsOf, hm]
      exact ih fun q hq => h q (List.mem_cons_of_mem _ hq)

end JosfraPge.Foundation.XmlDocument
