import JosfraPge.Config.ScalarReaders
import JosfraPge.Foundation.XmlDocument

/-!
# The CAS metadata document

`render_cas_metadata` writes an ordered mapping as an XML document, escaping `&`, `<` and `>`;
`write_cas_file` writes that text unchanged.  `readCas` is the consumer: an XML 1.0 reader that takes the
texts of `key` and `val` of every `keyval` element.

* `documentPieces_text`: the document is a sequence of complete pieces, whatever keys and values hold.
* `readCas_render`: the consumer gets the mapping back with line ends normalised.
* `casRoundTrips_iff`: so the mapping comes back exactly when no key and no value holds a carriage return.
-/

namespace JosfraPge.Product.CasDocument

open JosfraPge.Foundation.LineText
open JosfraPge.Foundation.XmlScan
open JosfraPge.Foundation.XmlEncoding
open JosfraPge.Foundation.XmlTree
open JosfraPge.Foundation.XmlDocument
open JosfraPge.Config.ScalarReaders

/-! ## Writing -/

/-- `CAS_NAMESPACE` -/
def casNamespace : Text := "http://oodt.jpl.nasa.gov/1.0/cas".toList

/-- An ordered mapping of CAS keys to values. -/
abbrev Metadata := List (Text × Text)

def xmlDecl : Text := "<?xml version=\"1.0\" encoding=\"UTF-8\"?>".toList

def casOpen : Text := "<cas:metadata xmlns:cas=\"".toList ++ (casNamespace ++ "\">".toList)

def casClose : Text := "</cas:metadata>".toList

def keyvalOpen : Text := "<keyval type=\"vector\">".toList

def keyvalClose : Text := "</keyval>".toList

def keyOpen : Text := "<key>".toList

def keyClose : Text := "</key>".toList

def valOpen : Text := "<val>".toList

def valClose : Text := "</val>".toList

/-- One element of the `keyvals` list. -/
def keyval (entry : Text × Text) : Text :=
  keyvalOpen ++ ("\n\t".toList ++ (keyOpen ++ (escape entry.1 ++ (keyClose ++ ("\n\t".toList ++
    (valOpen ++ (escape entry.2 ++ (valClose ++ ("\n".toList ++ keyvalClose)))))))))

/-- `render_cas_metadata` -/
def renderCasMetadata (metadata : Metadata) : Text :=
  xmlDecl ++ ("\n".toList ++ (casOpen ++ ("\n\n".toList ++
    (List.intercalate "\n".toList (metadata.map keyval) ++ ("\n\n".toList ++ (casClose ++
      "\n".toList))))))

/-! ## Reading back -/

/-- The text of the first of some elements with a tag; absent text is empty. -/
def firstText (tag : Text) (es : List Element) : Text :=
  ((es.find? fun c => c.tag == tag).bind Element.text).getD []

/-- The `key` and `val` texts of the `keyval` elements, in order. -/
def keyvals (root : Element) : Metadata :=
  (root.children.filter fun c => c.tag == "keyval".toList).map fun c =>
    (firstText "key".toList c.children, firstText "val".toList c.children)

/-- Read a CAS file. -/
def readCas (doc : Text) : Option Metadata := (readDocument doc).map keyvals

/-- Every character may stand in an XML document. -/
def XmlText (s : Text) : Prop := ∀ c ∈ s, isXmlChar c = true

instance (s : Text) : Decidable (XmlText s) := inferInstanceAs (Decidable (∀ c ∈ s, isXmlChar c = true))

/-- The file is well formed and gives the mapping back. -/
def CasRoundTrips (metadata : Metadata) : Prop :=
  (∃ root, readDocument (renderCasMetadata metadata) = some root) ∧
    readCas (renderCasMetadata metadata) = some metadata

/-! ## The pieces of the document -/

/-- The pieces of one entry, behind the characters `lead`. -/
def entryPieces (lead : Text) (entry : Text × Text) : List (Text × Text) :=
  [(lead, keyvalOpen), ("\n\t".toList, keyOpen), (escape entry.1, keyClose),
   ("\n\t".toList, valOpen), (escape entry.2, valClose), ("\n".toList, keyvalClose)]

/-- The pieces between the opening tag of the root and its closing tag, which included. -/
def bodyPieces : Metadata → List (Text × Text)
  | [] => [("\n\n\n\n".toList, casClose)]
  | entry :: rest =>
      entryPieces "\n\n".toList entry ++
        (rest.flatMap (entryPieces "\n".toList) ++ [("\n\n".toList, casClose)])

def documentPieces (metadata : Metadata) : Pieces :=
  (([], xmlDecl) :: ("\n".toList, casOpen) :: bodyPieces metadata, "\n".toList)

theorem intercalate_keyval (entry : Text × Text) (rest : Metadata) :
    List.intercalate "\n".toList ((entry :: rest).map keyval)
      = keyval entry ++ rest.flatMap fun e => "\n".toList ++ keyval e := by
  induction rest generalizing entry with
  | nil => simp [List.intercalate]
  | cons e es ih =>
      rw [List.map_cons, List.map_cons, List.intercalate_cons_cons, ← List.map_cons, ih e,
        List.flatMap_cons]
      simp only [List.append_assoc]

theorem entryPieces_text (lead : Text) (entry : Text × Text) :
    (entryPieces lead entry).flatMap (fun q => q.1 ++ q.2) = lead ++ keyval entry := by
  simp only [entryPieces, keyval, List.flatMap_cons, List.flatMap_nil, List.append_assoc,
    List.append_nil]

/-- The pieces make up the document. -/
theorem documentPieces_text (metadata : Metadata) :
    (documentPieces metadata).text = renderCasMetadata metadata := by
  have hentries : ∀ rest : Metadata,
      (rest.flatMap (entryPieces "\n".toList)).flatMap (fun q => q.1 ++ q.2)
        = rest.flatMap fun e => "\n".toList ++ keyval e := by
    intro rest
    rw [List.flatMap_assoc]
    congr 1
    funext e
    exact entryPieces_text _ e
  cases metadata with
  | nil => rfl
  | cons entry rest =>
      simp only [documentPieces, Pieces.text, bodyPieces, renderCasMetadata, intercalate_keyval,
        List.flatMap_cons, List.flatMap_append, List.flatMap_nil, hentries, entryPieces_text,
        List.append_assoc, List.nil_append, List.append_nil]

theorem isMarkup_xmlDecl : IsMarkup xmlDecl := isMarkup_of_scan (by decide)

theorem isMarkup_casOpen : IsMarkup casOpen := isMarkup_of_scan (by decide)

theorem isMarkup_casClose : IsMarkup casClose := isMarkup_of_scan (by decide)

theorem isMarkup_entry :
    IsMarkup keyvalOpen ∧ IsMarkup keyvalClose ∧ IsMarkup keyOpen ∧ IsMarkup keyClose ∧
      IsMarkup valOpen ∧ IsMarkup valClose :=
  ⟨isMarkup_of_scan (by decide), isMarkup_of_scan (by decide),
    isMarkup_of_scan (by decide), isMarkup_of_scan (by decide),
    isMarkup_of_scan (by decide), isMarkup_of_scan (by decide)⟩

/-- Every markup of an entry is complete, and no characters between hold a `<`. -/
theorem entryPieces_good {lead : Text} (hlead : '<' ∉ lead) (entry : Text × Text) :
    ∀ p ∈ entryPieces lead entry, '<' ∉ p.1 ∧ IsMarkup p.2 := by
  obtain ⟨hko, hkc, hyo, hyc, hvo, hvc⟩ := isMarkup_entry
  intro p hp
  simp only [entryPieces, List.mem_cons, List.not_mem_nil, or_false] at hp
  rcases hp with rfl | rfl | rfl | rfl | rfl | rfl
  · exact ⟨hlead, hko⟩
  · exact ⟨by decide, hyo⟩
  · exact ⟨(escape_no_markup entry.1).1, hyc⟩
  · exact ⟨by decide, hvo⟩
  · exact ⟨(escape_no_markup entry.2).1, hvc⟩
  · exact ⟨by decide, hkc⟩

theorem documentPieces_good (metadata : Metadata) :
    ∀ p ∈ (documentPieces metadata).1, '<' ∉ p.1 ∧ IsMarkup p.2 := by
  intro p hp
  simp only [documentPieces, List.mem_cons] at hp
  rcases hp with rfl | rfl | hp
  · exact ⟨by simp, isMarkup_xmlDecl⟩
  · exact ⟨by decide, isMarkup_casOpen⟩
  · cases metadata with
    | nil =>
        simp only [bodyPieces, List.mem_singleton] at hp
        subst hp
        exact ⟨by decide, isMarkup_casClose⟩
    | cons entry rest =>
        simp only [bodyPieces, List.mem_append, List.mem_flatMap, List.mem_singleton] at hp
        rcases hp with hp | ⟨e, -, hp⟩ | rfl
        · exact entryPieces_good (by decide) entry p hp
        · exact entryPieces_good (by decide) e p hp
        · exact ⟨by decide, isMarkup_casClose⟩

/-- The markup of the document, which declares nothing. -/
theorem markup_documentPieces (metadata : Metadata) : ∀ p ∈ (documentPieces metadata).1,
    p.2 ∈ [xmlDecl, casOpen, casClose, keyvalOpen, keyvalClose, keyOpen, keyClose, valOpen, valClose] := by
  have hentry : ∀ lead e, ∀ p ∈ entryPieces lead e,
      p.2 ∈ [keyvalOpen, keyvalClose, keyOpen, keyClose, valOpen, valClose] := by
    intro lead e p hp
    simp only [entryPieces, List.mem_cons, List.not_mem_nil, or_false] at hp
    rcases hp with rfl | rfl | rfl | rfl | rfl | rfl <;> simp
  intro p hp
  simp only [documentPieces, List.mem_cons] at hp
  rcases hp with rfl | rfl | hp
  · simp
  · simp
  · cases metadata with
    | nil =>
        simp only [bodyPieces, List.mem_singleton] at hp
        simp [hp]
    | cons entry rest =>
        simp only [bodyPieces, List.mem_append, List.mem_flatMap, List.mem_singleton] at hp
        rcases hp with hp | ⟨e, -, hp⟩ | rfl
        · exact List.mem_append_right [xmlDecl, casOpen, casClose] (hentry _ entry p hp)
        · exact List.mem_append_right [xmlDecl, casOpen, casClose] (hentry _ e p hp)
        · simp

theorem declares_documentPieces (metadata : Metadata) :
    ∀ p ∈ (documentPieces metadata).1, declares p.2 = false := by
  have hlayout : ∀ m ∈ [xmlDecl, casOpen, casClose, keyvalOpen, keyvalClose, keyOpen, keyClose, valOpen,
      valClose], declares m = false := by
    decide
  exact fun p hp => hlayout p.2 (markup_documentPieces metadata p hp)

/-- The scanner cuts the document into its pieces. -/
theorem scan_render (metadata : Metadata) :
    scan (.chars []) (renderCasMetadata metadata) = some (documentPieces metadata) := by
  rw [← documentPieces_text]
  exact scan_pieces (documentPieces_good metadata) (by decide)

/-! ## The tree of the document -/

/-- The element an entry is read as. -/
def entryElement (entry : Text × Text) : Element :=
  .mk "keyval".toList [("type".toList, "vector".toList)] (some "\n\t".toList)
    [.mk "key".toList [] (textOf (normalizeEol entry.1)) [],
     .mk "val".toList [] (textOf (normalizeEol entry.2)) []]

/-- The environment inside the root element. -/
def casEnv : Env := ("cas".toList, casNamespace) :: initialEnv

/-- The open root element. -/
def rootFrame (text : Text) (children : List Element) : Frame :=
  ⟨"cas:metadata".toList, casEnv, '{' :: (casNamespace ++ "\x7dmetadata".toList), [], text, children⟩

/-- The state inside the root element. -/
def insideRoot (text : Text) (children : List Element) : State :=
  ⟨[rootFrame text children], none, false⟩

theorem parse_entry_markup :
    parseMarkup keyvalOpen = some (.start "keyval".toList [("type".toList, "vector".toList)] false) ∧
    parseMarkup keyvalClose = some (.close "keyval".toList) ∧
    parseMarkup keyOpen = some (.start "key".toList [] false) ∧
    parseMarkup keyClose = some (.close "key".toList) ∧
    parseMarkup valOpen = some (.start "val".toList [] false) ∧
    parseMarkup valClose = some (.close "val".toList) := by
  decide

theorem newFrame_entry :
    newFrame casEnv "keyval".toList [("type".toList, "vector".toList)]
      = some ⟨"keyval".toList, casEnv, "keyval".toList, [("type".toList, "vector".toList)], [], []⟩ ∧
    newFrame casEnv "key".toList [] = some ⟨"key".toList, casEnv, "key".toList, [], [], []⟩ ∧
    newFrame casEnv "val".toList [] = some ⟨"val".toList, casEnv, "val".toList, [], [], []⟩ :=
  ⟨rfl, rfl, rfl⟩

theorem charData_layout :
    charData "\n".toList = some "\n".toList ∧ charData "\n\n".toList = some "\n\n".toList ∧
    charData "\n\t".toList = some "\n\t".toList ∧
    charData "\n\n\n\n".toList = some "\n\n\n\n".toList := by
  decide

/-- The open root takes layout, which no reader of the mapping looks at. -/
theorem rootFrame_addText (s text : Text) (children : List Element) :
    ∃ text', (rootFrame text children).addText s = rootFrame text' children := by
  unfold Frame.addText
  split
  · exact ⟨text ++ s, rfl⟩
  · exact ⟨text, rfl⟩

/-- **One entry is read as one element.** -/
theorem build_entry {lead : Text} (hlead : charData lead = some lead) (entry : Text × Text)
    (text : Text) (children : List Element) :
    ∃ text', build (insideRoot text children) (entryPieces lead entry)
      = some (insideRoot text' (children ++ [entryElement entry])) := by
  obtain ⟨hko, hkc, hyo, hyc, hvo, hvc⟩ := parse_entry_markup
  obtain ⟨fkeyval, fkey, fval⟩ := newFrame_entry
  obtain ⟨hn, -, hnt, -⟩ := charData_layout
  obtain ⟨text', htext⟩ := rootFrame_addText lead text children
  have hsplit : entryPieces lead entry = (lead, keyvalOpen) ::
      ([("\n\t".toList, keyOpen), (escape entry.1, keyClose)] ++
        ([("\n\t".toList, valOpen), (escape entry.2, valClose)] ++ [("\n".toList, keyvalClose)])) := rfl
  refine ⟨text', ?_⟩
  rw [hsplit, build_cons, insideRoot, step_open hlead hko fkeyval, Option.bind_some, build_append,
    build_leaf hnt hyo fkey (charData_escape entry.1) hyc, Option.bind_some, build_append,
    build_leaf hnt hvo fval (charData_escape entry.2) hvc, Option.bind_some, build_cons,
    step_close hn hkc, htext]
  rfl

/-- All entries, one after the other. -/
theorem build_entries (rest : Metadata) (text : Text) (children : List Element) :
    ∃ text', build (insideRoot text children) (rest.flatMap (entryPieces "\n".toList))
      = some (insideRoot text' (children ++ rest.map entryElement)) := by
  induction rest generalizing text children with
  | nil => exact ⟨text, by simp⟩
  | cons entry rest ih =>
      obtain ⟨t₁, h₁⟩ := build_entry charData_layout.1 entry text children
      obtain ⟨t₂, h₂⟩ := ih t₁ (children ++ [entryElement entry])
      refine ⟨t₂, ?_⟩
      rw [List.flatMap_cons, build_append, h₁, Option.bind_some, h₂, List.map_cons,
        List.append_assoc, List.singleton_append]

theorem step_casClose {raw s : Text} (hraw : charData raw = some s) (text : Text)
    (children : List Element) :
    ∃ text', step (insideRoot text children) (raw, casClose)
      = some ⟨[], some (rootFrame text' children).element, false⟩ := by
  obtain ⟨text', htext⟩ := rootFrame_addText s text children
  have hclose : parseMarkup casClose = some (.close "cas:metadata".toList) := by decide
  refine ⟨text', ?_⟩
  rw [insideRoot, step_close_root hraw hclose, htext]

/-- The whole body. -/
theorem build_body (metadata : Metadata) :
    ∃ text, build (insideRoot [] []) (bodyPieces metadata)
      = some ⟨[], some (rootFrame text (metadata.map entryElement)).element, false⟩ := by
  obtain ⟨-, hnn, -, hnnnn⟩ := charData_layout
  cases metadata with
  | nil =>
      obtain ⟨t, h⟩ := step_casClose hnnnn [] []
      exact ⟨t, by rw [bodyPieces, build_cons, h]; rfl⟩
  | cons entry rest =>
      obtain ⟨t₁, h₁⟩ := build_entry hnn entry [] []
      obtain ⟨t₂, h₂⟩ := build_entries rest t₁ ([] ++ [entryElement entry])
      obtain ⟨t₃, h₃⟩ := step_casClose hnn t₂ ([] ++ [entryElement entry] ++ rest.map entryElement)
      refine ⟨t₃, ?_⟩
      rw [bodyPieces, build_append, h₁, Option.bind_some, build_append, h₂, Option.bind_some,
        build_cons, h₃, Option.bind_some, build_nil]
      rfl

/-- The root is opened behind the XML declaration. -/
theorem dropXmlDecl_document (metadata : Metadata) :
    dropXmlDecl (documentPieces metadata).1 = some (("\n".toList, casOpen) :: bodyPieces metadata) := by
  have hdecl : isXmlDecl xmlDecl = true ∧ validXmlDecl xmlDecl = true := by decide
  rw [documentPieces, dropXmlDecl, if_pos hdecl.1, if_pos hdecl.2]

theorem encodingOf_document (metadata : Metadata) :
    encodingOf noCodecs (documentPieces metadata).1 = some .utf8 := by
  have hdecl : isXmlDecl xmlDecl = true ∧ declaredEncoding xmlDecl = some (some "UTF-8".toList) := by
    decide
  have hutf8 : encodingNamed noCodecs "UTF-8".toList = some .utf8 := rfl
  rw [documentPieces, encodingOf, if_pos hdecl.1, hdecl.2]
  exact hutf8

theorem step_casOpen : step initialState ("\n".toList, casOpen) = some (insideRoot [] []) := by
  have hspace : stepChars "\n".toList initialState = some initialState := rfl
  have hopen : parseMarkup casOpen
      = some (.start "cas:metadata".toList [("xmlns:cas".toList, casNamespace)] false) := by
    decide
  have hframe : newFrame initialEnv "cas:metadata".toList [("xmlns:cas".toList, casNamespace)]
      = some (rootFrame [] []) := rfl
  have henv : initialState.env = initialEnv := rfl
  rw [step, hspace, Option.bind_some, hopen, Option.bind_some, stepMarkup, openElement,
    if_neg (by simp [initialState]), henv, hframe]
  rfl

/-- Every character of the document may stand in an XML document. -/
theorem renderCasMetadata_xmlText {metadata : Metadata}
    (hchars : ∀ e ∈ metadata, XmlText e.1 ∧ XmlText e.2) : XmlText (renderCasMetadata metadata) := by
  have hlayout : XmlText xmlDecl ∧ XmlText casOpen ∧ XmlText casClose ∧ XmlText keyvalOpen ∧
      XmlText keyvalClose ∧ XmlText keyOpen ∧ XmlText keyClose ∧ XmlText valOpen ∧ XmlText valClose ∧
      XmlText "\n".toList ∧ XmlText "\n\n".toList ∧ XmlText "\n\t".toList ∧
      XmlText "\n\n\n\n".toList := by decide
  obtain ⟨h1, h2, h3, h4, h5, h6, h7, h8, h9, h10, h11, h12, h13⟩ := hlayout
  have happend : ∀ a b : Text, XmlText a → XmlText b → XmlText (a ++ b) := by
    intro a b ha hb c hc
    rcases List.mem_append.mp hc with hc | hc
    · exact ha c hc
    · exact hb c hc
  have hentry : ∀ lead e, XmlText lead → e ∈ metadata →
      ∀ p ∈ entryPieces lead e, XmlText (p.1 ++ p.2) := by
    intro lead e hlead he p hp
    have hk := escape_xmlChar (hchars e he).1
    have hv := escape_xmlChar (hchars e he).2
    simp only [entryPieces, List.mem_cons, List.not_mem_nil, or_false] at hp
    rcases hp with rfl | rfl | rfl | rfl | rfl | rfl
    · exact happend _ _ hlead h4
    · exact happend _ _ h12 h6
    · exact happend _ _ hk h7
    · exact happend _ _ h12 h8
    · exact happend _ _ hv h9
    · exact happend _ _ h10 h5
  have hbody : ∀ p ∈ bodyPieces metadata, XmlText (p.1 ++ p.2) := by
    intro p hp
    cases metadata with
    | nil =>
        rw [bodyPieces, List.mem_singleton] at hp
        subst hp
        exact happend _ _ h13 h3
    | cons e es =>
        simp only [bodyPieces, List.mem_append, List.mem_flatMap, List.mem_singleton] at hp
        rcases hp with hp | ⟨e', he', hp⟩ | rfl
        · exact hentry _ e h11 List.mem_cons_self p hp
        · exact hentry _ e' h10 (List.mem_cons_of_mem _ he') p hp
        · exact happend _ _ h11 h3
  rw [← documentPieces_text, documentPieces]
  refine happend _ _ (fun c hc => ?_) h10
  obtain ⟨p, hp, hc⟩ := List.mem_flatMap.mp hc
  rcases List.mem_cons.mp hp with rfl | hp
  · exact h1 c hc
  · rcases List.mem_cons.mp hp with rfl | hp
    · exact happend _ _ h10 h2 c hc
    · exact hbody p hp c hc

/-- **The document is well formed and is read as the elements of its entries.** -/
theorem read_render {metadata : Metadata} (hchars : ∀ e ∈ metadata, XmlText e.1 ∧ XmlText e.2) :
    ∃ text, readDocument (renderCasMetadata metadata)
      = some (rootFrame text (metadata.map entryElement)).element := by
  obtain ⟨text, hbuild⟩ := build_body metadata
  have hmark : dropMark (renderCasMetadata metadata) = renderCasMetadata metadata := rfl
  have hscan : scan (.chars []) (dropMark (renderCasMetadata metadata))
      = some (documentPieces metadata) := by
    rw [hmark, scan_render]
  have hpieces : decodedPieces plainReader.codecs (renderCasMetadata metadata)
      = some (documentPieces metadata) := decodedPieces_utf8 hscan (encodingOf_document metadata)
  have hall : (renderCasMetadata metadata).all isXmlChar = true :=
    List.all_eq_true.mpr (renderCasMetadata_xmlText hchars)
  have hfinish : ∀ e, finish "\n".toList ⟨[], some e, false⟩ = some e := fun _ => rfl
  have hroot : readPieces ((documentPieces metadata).1, (documentPieces metadata).2)
      = some (rootFrame text (metadata.map entryElement)).element := by
    rw [readPieces, dropXmlDecl_document, Option.bind_some, build_cons, step_casOpen, Option.bind_some,
      hbuild, Option.bind_some]
    exact hfinish _
  exact ⟨text, readWith_iff.2 ⟨_, noDeclarations, _, hpieces, by rw [documentPieces_text, hall],
    declarationsOf_plain (declares_documentPieces metadata), carryOut_plain _, hroot⟩⟩

/-! ## What the consumer gets -/

theorem textOf_getD (s : Text) : (textOf s).getD [] = s := by
  unfold textOf
  split
  · rename_i h
    exact h.symm
  · rfl

theorem firstText_cons_self (tag : Text) (attrib : List (Text × Text)) (text : Option Text)
    (children es : List Element) :
    firstText tag (.mk tag attrib text children :: es) = text.getD [] := by
  simp [firstText, Element.tag, Element.text]

theorem firstText_cons_ne {tag tag' : Text} (h : tag' ≠ tag) (attrib : List (Text × Text))
    (text : Option Text) (children es : List Element) :
    firstText tag (.mk tag' attrib text children :: es) = firstText tag es := by
  simp [firstText, Element.tag, h]

theorem firstText_entryElement (entry : Text × Text) :
    firstText "key".toList (entryElement entry).children = normalizeEol entry.1 ∧
      firstText "val".toList (entryElement entry).children = normalizeEol entry.2 := by
  have hne : "key".toList ≠ "val".toList := by decide
  constructor
  · rw [entryElement, Element.children, firstText_cons_self, textOf_getD]
  · rw [entryElement, Element.children, firstText_cons_ne hne, firstText_cons_self, textOf_getD]

/-- **The mapping comes back with its line ends normalised.** -/
theorem readCas_render {metadata : Metadata} (hchars : ∀ e ∈ metadata, XmlText e.1 ∧ XmlText e.2) :
    readCas (renderCasMetadata metadata)
      = some (metadata.map fun e => (normalizeEol e.1, normalizeEol e.2)) := by
  obtain ⟨text, hread⟩ := read_render hchars
  have hkeep : (metadata.map entryElement).filter (fun c => c.tag == "keyval".toList)
      = metadata.map entryElement := by
    rw [List.filter_eq_self]
    intro c hc
    obtain ⟨e, -, rfl⟩ := List.mem_map.mp hc
    exact beq_self_eq_true "keyval".toList
  have hchildren : ∀ es, (rootFrame text es).element.children = es := fun _ => rfl
  rw [readCas, hread, Option.map_some, keyvals, hchildren, hkeep, List.map_map]
  refine congrArg some (List.map_congr_left fun e _ => ?_)
  exact Prod.ext (firstText_entryElement e).1 (firstText_entryElement e).2

/-- **The mapping comes back exactly when it holds no carriage return.** -/
theorem casRoundTrips_iff {metadata : Metadata}
    (hchars : ∀ e ∈ metadata, XmlText e.1 ∧ XmlText e.2) :
    CasRoundTrips metadata ↔ ∀ e ∈ metadata, '\r' ∉ e.1 ∧ '\r' ∉ e.2 := by
  obtain ⟨text, hread⟩ := read_render hchars
  have hsame : readCas (renderCasMetadata metadata) = some metadata ↔
      ∀ e ∈ metadata, (normalizeEol e.1, normalizeEol e.2) = e := by
    rw [readCas_render hchars, Option.some.injEq]
    constructor
    · intro h e he
      have hmap := List.map_eq_map_iff.mp (h.trans (List.map_id metadata).symm)
      exact hmap e he
    · intro h
      exact (List.map_congr_left h).trans (List.map_id metadata)
  rw [CasRoundTrips, hsame]
  constructor
  · rintro ⟨-, h⟩ e he
    exact ⟨(normalizeEol_eq_self_iff _).mp (congrArg Prod.fst (h e he)),
      (normalizeEol_eq_self_iff _).mp (congrArg Prod.snd (h e he))⟩
  · intro h
    refine ⟨⟨_, hread⟩, fun e he => ?_⟩
    exact Prod.ext ((normalizeEol_eq_self_iff _).mpr (h e he).1)
      ((normalizeEol_eq_self_iff _).mpr (h e he).2)

/-- Markup characters come back, and so does every line feed and tab. -/
theorem casRoundTrips_iff_markup :
    CasRoundTrips [("AlgorithmVersion".toList, "a<b>&]]>\n\t&amp;".toList), ("N".toList, [])] ↔
      ∀ e ∈ [("AlgorithmVersion".toList, "a<b>&]]>\n\t&amp;".toList), ("N".toList, [])],
        '\r' ∉ e.1 ∧ '\r' ∉ e.2 :=
  casRoundTrips_iff (by decide)

/-- A config whose version text holds a carriage return, written as a character reference. -/
def carriageReturnConfig : Text :=
  "<input><group name=\"PrimaryExecutable\"><scalar name=\"Version\">v1&#13;b</scalar></group></input>".toList

/-- The config reader returns that version, and the CAS file made from it reads differently. -/
theorem casRoundTrips_fails_carriageReturn :
    (readDocument carriageReturnConfig).map
        (fun root => getScalar root "PrimaryExecutable".toList "Version".toList)
        = some (.ok "v1\rb".toList) ∧
      (∀ e ∈ [("AlgorithmVersion".toList, "v1\rb".toList)], XmlText e.1 ∧ XmlText e.2) ∧
      ¬ CasRoundTrips [("AlgorithmVersion".toList, "v1\rb".toList)] := by
  refine ⟨by decide, by decide, fun h => ?_⟩
  have hread : readCas (renderCasMetadata [("AlgorithmVersion".toList, "v1\rb".toList)])
      = some [("AlgorithmVersion".toList, "v1\nb".toList)] := by decide +kernel
  exact absurd (hread.symm.trans h.2) (by decide)

end JosfraPge.Product.CasDocument
