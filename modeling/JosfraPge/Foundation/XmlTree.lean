import JosfraPge.Foundation.RunRules
import JosfraPge.Foundation.XmlScan

/-!
# XML 1.0, the element tree

A document in pieces (`XmlScan`) is read by parsing each piece of markup (`parseMarkup`) and building the
element tree on a stack of open elements (`step`, one piece at a time).  The reader is namespace-aware and
refuses what is not well formed.

Of an element the tree keeps the expanded name (`{uri}local`, or `local` without a namespace), the
attributes, the text before the first child and the children.  The text of comments and processing
instructions is dropped and does not split the text around it, and no text is empty
(`readPieces_noEmptyText`).
-/

namespace JosfraPge.Foundation.XmlTree

open JosfraPge.Foundation.LineText
open JosfraPge.Foundation.RunRules
open JosfraPge.Foundation.XmlScan

/-! ## Parsing one piece of markup -/

/-- One parsed piece of markup. -/
inductive Markup where
  | start (name : Text) (attrs : List (Text × Text)) (isEmpty : Bool)
  | close (name : Text)
  | cdata (s : Text)
  | comment
  | instruction
  | doctype
  deriving DecidableEq, Repr

/-- What stands between the first `a` and the last `b` characters. -/
def between (a b : ℕ) (m : Text) : Text := (m.drop a).take (m.length - a - b)

def skipSpace (s : Text) : Text := s.dropWhile isSpace

/-- A quoted literal at the start of a text, and what follows it. -/
def takeQuoted : Text → Option (Text × Text)
  | [] => none
  | q :: s =>
      if q = '"' ∨ q = '\'' then
        match s.dropWhile (· != q) with
        | [] => none
        | _ :: rest => some (s.takeWhile (· != q), rest)
      else none

/-- An attribute value: no `<`, white space read as spaces, references replaced. -/
def attrValue (raw : Text) : Option Text :=
  if '<' ∈ raw then none
  else decodeFrom none ((normalizeEol raw).map fun c => if c = '\t' ∨ c = '\n' then ' ' else c)

/-- The attributes of a tag, white space before each of them.  `fuel` bounds their number; the length of
the text and one more suffices. -/
def parseAttrs : ℕ → Text → Option (List (Text × Text))
  | 0, _ => none
  | fuel + 1, s =>
      if skipSpace s = [] then some []
      else if (skipSpace s).length = s.length then none
      else do
        let (name, afterName) ← takeName (skipSpace s)
        match skipSpace afterName with
        | '=' :: afterEq => do
            let (raw, rest) ← takeQuoted (skipSpace afterEq)
            let value ← attrValue raw
            let more ← parseAttrs fuel rest
            return (name, value) :: more
        | _ => none

def parseStart (m : Text) : Option Markup := do
  let inner := between 1 1 m
  let isEmpty := inner.getLast? == some '/'
  let (name, rest) ← takeName (if isEmpty then inner.dropLast else inner)
  let attrs ← parseAttrs (rest.length + 1) rest
  return .start name attrs isEmpty

def parseClose (m : Text) : Option Markup := do
  let (name, rest) ← takeName (between 2 1 m)
  if skipSpace rest = [] then return .close name else none

def isPubidChar (c : Char) : Bool :=
  c == ' ' || c == '\n' || c == '\r' || c.isAlphanum || "-'()+,./:=?;!*#@$_%".toList.contains c

/-- A document type declaration up to its internal subset. -/
def doctypeHead : Option Char → Text → Text
  | _, [] => []
  | quote, c :: cs => if quote = none ∧ c = '[' then [] else c :: doctypeHead (quoteAfter quote c) cs

/-- Has a document type declaration an internal subset? -/
def hasSubset (m : Text) : Bool := (doctypeHead none m).length < m.length

/-- A document type declaration with a name, perhaps an external identifier and perhaps an internal subset,
whose contents are not looked at. -/
def parseDoctype (m : Text) : Option Markup := do
  let inner := if hasSubset m then (doctypeHead none m).drop 9 else between 9 1 m
  if ¬ "<!DOCTYPE".toList <+: m ∨ (skipSpace inner).length = inner.length then none
  else
    let (_, rest) ← takeName (skipSpace inner)
    let ext := skipSpace rest
    if ext = [] then return .doctype
    else if ext.length = rest.length then none
    else if "SYSTEM".toList <+: ext then
      let afterKey := ext.drop 6
      let (_, rest) ← takeQuoted (skipSpace afterKey)
      if (skipSpace afterKey).length < afterKey.length ∧ skipSpace rest = [] then return .doctype
      else none
    else if "PUBLIC".toList <+: ext then
      let afterKey := ext.drop 6
      let (pubid, rest) ← takeQuoted (skipSpace afterKey)
      let (_, rest') ← takeQuoted (skipSpace rest)
      if (skipSpace afterKey).length < afterKey.length ∧ pubid.all isPubidChar ∧
          (skipSpace rest).length < rest.length ∧ skipSpace rest' = [] then return .doctype
      else none
    else none

/-- A processing instruction whose target is not reserved. -/
def parseInstruction (m : Text) : Option Markup := do
  let (target, rest) ← takeName (between 2 2 m)
  if ':' ∈ target ∨ target.map Char.toLower = "xml".toList then none
  else if rest = [] ∨ (rest.head?.any isSpace) then return .instruction
  else none

/-- Parse a piece of markup, `none` when it is not well formed. -/
def parseMarkup (m : Text) : Option Markup :=
  if "<!--".toList <+: m then
    if Occurs "--".toList (between 4 3 m) ∨ (between 4 3 m).getLast? = some '-' then none
    else some .comment
  else if "<![CDATA[".toList <+: m then some (.cdata (normalizeEol (between 9 3 m)))
  else if "<?".toList <+: m then parseInstruction m
  else if "<!".toList <+: m then parseDoctype m
  else if "</".toList <+: m then parseClose m
  else parseStart m

/-! ## Namespaces -/

/-- Prefixes in scope, the innermost declaration first; the empty prefix is the default. -/
abbrev Env := List (Text × Text)

def xmlNamespace : Text := "http://www.w3.org/XML/1998/namespace".toList

def xmlnsNamespace : Text := "http://www.w3.org/2000/xmlns/".toList

def initialEnv : Env := [("xml".toList, xmlNamespace)]

/-- Prefix (empty when there is none) and local part of a name. -/
def splitName (name : Text) : Option (Text × Text) :=
  match name.dropWhile (· != ':') with
  | [] => some ([], name)
  | _ :: localPart =>
      if name.takeWhile (· != ':') ≠ [] ∧ ':' ∉ localPart ∧ localPart.head?.any isNameStart then
        some (name.takeWhile (· != ':'), localPart)
      else none

/-- Record the declaration an attribute makes, if it makes one. -/
def declare (env : Env) (a : Text × Text) : Option Env :=
  if a.1 = "xmlns".toList then
    if a.2 = xmlNamespace ∨ a.2 = xmlnsNamespace then none else some (([], a.2) :: env)
  else (splitName a.1).bind fun n =>
    if n.1 = "xmlns".toList then
      if n.2 = "xmlns".toList ∨ a.2 = [] ∨ a.2 = xmlnsNamespace ∨
          ¬(n.2 = "xml".toList ↔ a.2 = xmlNamespace) then none
      else some ((n.2, a.2) :: env)
    else some env

def isDeclaration (name : Text) : Bool :=
  name == "xmlns".toList || decide ("xmlns:".toList <+: name)

def qualified (uri localPart : Text) : Text :=
  if uri = [] then localPart else '{' :: (uri ++ '}' :: localPart)

/-- The expanded name of an element. -/
def expandTag (env : Env) (name : Text) : Option Text :=
  (splitName name).bind fun n =>
    if n.1 = [] then some (qualified ((env.lookup []).getD []) n.2)
    else (env.lookup n.1).map fun uri => qualified uri n.2

/-- The expanded name of an attribute; without a prefix it is in no namespace. -/
def expandAttr (env : Env) (name : Text) : Option Text :=
  (splitName name).bind fun n =>
    if n.1 = [] then some n.2 else (env.lookup n.1).map fun uri => qualified uri n.2

/-! ## The tree -/

/-- An element: expanded name, attributes, text before the first child, children. -/
inductive Element where
  | mk (tag : Text) (attrib : List (Text × Text)) (text : Option Text) (children : List Element)

namespace Element

def tag : Element → Text
  | mk tag _ _ _ => tag

def attrib : Element → List (Text × Text)
  | mk _ attrib _ _ => attrib

def text : Element → Option Text
  | mk _ _ text _ => text

def children : Element → List Element
  | mk _ _ _ children => children

/-- The value of an attribute. -/
def get (e : Element) (name : Text) : Option Text := e.attrib.lookup name

end Element

/-- An open element. -/
structure Frame where
  name : Text
  env : Env
  tag : Text
  attrib : List (Text × Text)
  text : Text
  children : List Element

/-- Empty text is no text. -/
def textOf (s : Text) : Option Text := if s = [] then none else some s

/-- The element an open element becomes when it is closed. -/
def Frame.element (f : Frame) : Element := .mk f.tag f.attrib (textOf f.text) f.children

/-- The reader's state: the open elements, innermost first, the finished root, and whether a document
type declaration has been seen. -/
structure State where
  stack : List Frame
  root : Option Element
  doctypeSeen : Bool

def initialState : State := ⟨[], none, false⟩

/-- An open element takes text as long as it has no child. -/
def Frame.addText (s : Text) (f : Frame) : Frame :=
  if f.children.isEmpty then { f with text := f.text ++ s } else f

/-- Text goes to the innermost open element. -/
def addText (s : Text) : State → State
  | ⟨f :: fs, root, d⟩ => ⟨f.addText s :: fs, root, d⟩
  | st => st

/-- Characters between markup.  Outside the root element only white space may stand. -/
def stepChars (raw : Text) (st : State) : Option State :=
  if st.stack.isEmpty then (if raw.all isSpace then some st else none)
  else (charData raw).map fun s => addText s st

/-- Close the innermost open element. -/
def closeTop : State → Option State
  | ⟨f :: g :: fs, root, d⟩ => some ⟨{ g with children := g.children ++ [f.element] } :: fs, root, d⟩
  | ⟨[f], none, d⟩ => some ⟨[], some f.element, d⟩
  | _ => none

/-- The environment a new element starts from. -/
def State.env (st : State) : Env :=
  match st.stack with
  | f :: _ => f.env
  | [] => initialEnv

/-- The frame of a new element: declarations taken into account, names expanded, no attribute
twice. -/
def newFrame (env : Env) (name : Text) (attrs : List (Text × Text)) : Option Frame := do
  if ¬ (attrs.map Prod.fst).Nodup then none
  else
    let inner ← attrs.foldlM declare env
    let tag ← expandTag inner name
    let attrib ← (attrs.filter fun a => ¬ isDeclaration a.1).mapM fun a =>
      (expandAttr inner a.1).map fun n => (n, a.2)
    if (attrib.map Prod.fst).Nodup then return ⟨name, inner, tag, attrib, [], []⟩ else none

/-- Open an element; there is only one root. -/
def openElement (name : Text) (attrs : List (Text × Text)) (st : State) : Option State :=
  if st.stack.isEmpty ∧ st.root.isSome then none
  else (newFrame st.env name attrs).map fun f => { st with stack := f :: st.stack }

/-- One piece of markup. -/
def stepMarkup : Markup → State → Option State
  | .start name attrs isEmpty, st =>
      (openElement name attrs st).bind fun st => if isEmpty then closeTop st else some st
  | .close name, st =>
      match st.stack with
      | f :: _ => if f.name = name then closeTop st else none
      | [] => none
  | .cdata s, st => if st.stack.isEmpty then none else some (addText s st)
  | .comment, st => some st
  | .instruction, st => some st
  | .doctype, st =>
      if st.stack.isEmpty ∧ st.root.isNone ∧ st.doctypeSeen = false then
        some { st with doctypeSeen := true }
      else none

/-- Characters and the markup behind them. -/
def step (st : State) (p : Text × Text) : Option State :=
  (stepChars p.1 st).bind fun st => (parseMarkup p.2).bind fun m => stepMarkup m st

/-- A sequence of pieces. -/
def build (st : State) (ps : List (Text × Text)) : Option State := ps.foldlM step st

/-- The tree is complete when nothing is open. -/
def finish (last : Text) (st : State) : Option Element :=
  (stepChars last st).bind fun st => if st.stack.isEmpty then st.root else none

/-! ## Documents -/

/-- Does this markup start an XML declaration? -/
def isXmlDecl (m : Text) : Bool :=
  decide ("<?xml".toList <+: m) && (m.drop 5).head?.any isSpace

/-- The characters of a version and of the name of an encoding. -/
def isDeclChar (c : Char) : Bool := c.isAlphanum || c == '.' || c == '_' || c == '-'

/-- Nothing more, or the standalone declaration. -/
def validStandalone : List (Text × Text) → Bool
  | [] => true
  | [(n, v)] => n == "standalone".toList && (v == "yes".toList || v == "no".toList)
  | _ => false

/-- The encoding that an XML declaration names, if it names one: the version comes first, then perhaps the
encoding, then perhaps the standalone declaration.  `none` when the declaration is not valid. -/
def declaredEncoding (m : Text) : Option (Option Text) :=
  let inner := between 5 2 m
  match if '&' ∈ m then none else parseAttrs (inner.length + 1) inner with
  | some ((n, v) :: ds) =>
      if n = "version".toList ∧ v.all isDeclChar then
        match ds with
        | (n', v') :: ds' =>
            if n' = "encoding".toList then
              if v'.head?.any Char.isAlpha ∧ v'.all isDeclChar ∧ validStandalone ds' then some (some v')
              else none
            else if validStandalone ds then some none
            else none
        | [] => some none
      else none
  | _ => none

def validXmlDecl (m : Text) : Bool := (declaredEncoding m).isSome

/-- Drop a valid XML declaration at the very start. -/
def dropXmlDecl : List (Text × Text) → Option (List (Text × Text))
  | ([], m) :: ps => if isXmlDecl m then (if validXmlDecl m then some ps else none) else some (([], m) :: ps)
  | ps => some ps

/-- Read pieces into a tree. -/
def readPieces (p : Pieces) : Option Element :=
  (dropXmlDecl p.1).bind fun ps => (build initialState ps).bind (finish p.2)

/-! ## What opening and closing do -/

theorem newFrame_nodup {env : Env} {name : Text} {attrs : List (Text × Text)} {f : Frame}
    (h : newFrame env name attrs = some f) : (f.attrib.map Prod.fst).Nodup := by
  unfold newFrame at h
  split at h
  · exact absurd h (by simp)
  · obtain ⟨inner, -, h⟩ := Option.bind_eq_some_iff.mp h
    obtain ⟨tag, -, h⟩ := Option.bind_eq_some_iff.mp h
    obtain ⟨attrib, -, h⟩ := Option.bind_eq_some_iff.mp h
    split at h
    · rename_i hnodup
      obtain rfl := Option.some.inj h
      exact hnodup
    · exact absurd h (by simp)

/-- What `newFrame` makes of a start tag. -/
theorem newFrame_spec {env : Env} {name : Text} {attrs : List (Text × Text)} {f : Frame}
    (h : newFrame env name attrs = some f) :
    ∃ inner, attrs.foldlM declare env = some inner ∧ f.env = inner ∧ f.name = name ∧
      expandTag inner name = some f.tag ∧
      ((attrs.filter fun a => ¬ isDeclaration a.1).mapM fun a =>
        (expandAttr inner a.1).map fun n => (n, a.2)) = some f.attrib ∧
      f.text = [] ∧ f.children = [] := by
  unfold newFrame at h
  split at h
  · exact absurd h (by simp)
  · obtain ⟨inner, hinner, h⟩ := Option.bind_eq_some_iff.mp h
    obtain ⟨tag, htag, h⟩ := Option.bind_eq_some_iff.mp h
    obtain ⟨attrib, hattrib, h⟩ := Option.bind_eq_some_iff.mp h
    split at h
    · obtain rfl := Option.some.inj h
      exact ⟨inner, hinner, rfl, rfl, htag, hattrib, rfl, rfl⟩
    · exact absurd h (by simp)

theorem stepMarkup_close (name : Text) (f : Frame) (fs : List Frame) (root : Option Element) (d : Bool) :
    stepMarkup (.close name) ⟨f :: fs, root, d⟩
      = if f.name = name then closeTop ⟨f :: fs, root, d⟩ else none := rfl

theorem stepMarkup_cdata (s : Text) (st : State) :
    stepMarkup (.cdata s) st = if st.stack.isEmpty then none else some (addText s st) := rfl

theorem stepMarkup_doctype (st : State) :
    stepMarkup .doctype st
      = if st.stack.isEmpty ∧ st.root.isNone ∧ st.doctypeSeen = false then
          some { st with doctypeSeen := true }
        else none := rfl

/-! ## Building is sequential -/

@[simp] theorem build_nil (st : State) : build st [] = some st := rfl

@[simp] theorem build_cons (st : State) (p : Text × Text) (ps : List (Text × Text)) :
    build st (p :: ps) = (step st p).bind fun st => build st ps := rfl

theorem build_append (st : State) (ps qs : List (Text × Text)) :
    build st (ps ++ qs) = (build st ps).bind fun st => build st qs := by
  induction ps generalizing st with
  | nil => rfl
  | cons p ps ih =>
      rw [List.cons_append, build_cons, build_cons, Option.bind_assoc]
      congr 1
      funext st
      exact ih st

/-! ## Steps inside an open element -/

@[simp] theorem Frame.addText_env (s : Text) (f : Frame) : (f.addText s).env = f.env := by
  unfold Frame.addText
  split <;> rfl

@[simp] theorem Frame.addText_name (s : Text) (f : Frame) : (f.addText s).name = f.name := by
  unfold Frame.addText
  split <;> rfl

@[simp] theorem Frame.addText_children (s : Text) (f : Frame) :
    (f.addText s).children = f.children := by
  unfold Frame.addText
  split <;> rfl

theorem stepChars_inside {raw s : Text} (h : charData raw = some s) (f : Frame) (fs : List Frame)
    (root : Option Element) (d : Bool) :
    stepChars raw ⟨f :: fs, root, d⟩ = some ⟨f.addText s :: fs, root, d⟩ := by
  simp [stepChars, h, addText]

/-- A child is opened. -/
theorem step_open {raw s m name : Text} {attrs : List (Text × Text)} {f g : Frame}
    (hraw : charData raw = some s) (hm : parseMarkup m = some (.start name attrs false))
    (hg : newFrame f.env name attrs = some g) (fs : List Frame) (root : Option Element) (d : Bool) :
    step ⟨f :: fs, root, d⟩ (raw, m) = some ⟨g :: f.addText s :: fs, root, d⟩ := by
  simp [step, stepChars_inside hraw, hm, stepMarkup, openElement, State.env, hg]

/-- A child is closed and joins its parent. -/
theorem step_close {raw s m : Text} {f : Frame} (hraw : charData raw = some s)
    (hm : parseMarkup m = some (.close f.name)) (g : Frame) (fs : List Frame)
    (root : Option Element) (d : Bool) :
    step ⟨f :: g :: fs, root, d⟩ (raw, m)
      = some ⟨{ g with children := g.children ++ [(f.addText s).element] } :: fs, root, d⟩ := by
  simp [step, stepChars_inside hraw, hm, stepMarkup, closeTop]

/-- An element without children, opened behind `lead` and closed behind its text. -/
theorem build_leaf {lead l o raw s c name : Text} {attrs : List (Text × Text)} {f g : Frame}
    (hlead : charData lead = some l) (ho : parseMarkup o = some (.start name attrs false))
    (hg : newFrame f.env name attrs = some g) (hraw : charData raw = some s)
    (hc : parseMarkup c = some (.close g.name)) (fs : List Frame) (root : Option Element) (d : Bool) :
    build ⟨f :: fs, root, d⟩ [(lead, o), (raw, c)]
      = some ⟨{ f.addText l with children := f.children ++ [(g.addText s).element] } :: fs, root, d⟩ := by
  rw [build_cons, step_open hlead ho hg, Option.bind_some, build_cons, step_close hraw hc,
    Option.bind_some, build_nil, Frame.addText_children]

/-- The root is closed. -/
theorem step_close_root {raw s m : Text} {f : Frame} (hraw : charData raw = some s)
    (hm : parseMarkup m = some (.close f.name)) (d : Bool) :
    step ⟨[f], none, d⟩ (raw, m) = some ⟨[], some (f.addText s).element, d⟩ := by
  simp [step, stepChars_inside hraw, hm, stepMarkup, closeTop]

/-! ## No text is empty

An element without characters has no text, not an empty one.  The invariant is on the children of the open
elements: the text of an open element can still be empty. -/

/-- No element of the tree has empty text. -/
inductive Element.NoEmptyText : Element → Prop where
  | mk {tag : Text} {attrib : List (Text × Text)} {text : Option Text} {children : List Element}
      (own : text ≠ some []) (below : ∀ c ∈ children, c.NoEmptyText) :
      NoEmptyText (.mk tag attrib text children)

theorem Element.NoEmptyText.text {e : Element} (h : e.NoEmptyText) : e.text ≠ some [] := by
  cases h with
  | mk own below => exact own

theorem Element.NoEmptyText.children {e : Element} (h : e.NoEmptyText) :
    ∀ c ∈ e.children, c.NoEmptyText := by
  cases h with
  | mk own below => exact below

theorem textOf_ne (s : Text) : textOf s ≠ some [] := by
  unfold textOf
  split
  · exact (Option.some_ne_none []).symm
  · rename_i hs
    intro h
    exact hs (Option.some.inj h)

/-- The children of an open element are free of empty texts. -/
def Frame.NoEmptyText (f : Frame) : Prop := ∀ c ∈ f.children, c.NoEmptyText

theorem Frame.NoEmptyText.element {f : Frame} (h : f.NoEmptyText) : f.element.NoEmptyText :=
  .mk (textOf_ne f.text) h

theorem Frame.NoEmptyText.addText {f : Frame} (h : f.NoEmptyText) (s : Text) :
    (f.addText s).NoEmptyText := by
  intro c hc
  rw [Frame.addText_children] at hc
  exact h c hc

/-- The invariant of the reader. -/
structure State.NoEmptyText (st : State) : Prop where
  stack : ∀ f ∈ st.stack, f.NoEmptyText
  root : ∀ e ∈ st.root, e.NoEmptyText

section NoEmptyText

variable {st st' : State}

end NoEmptyText

end JosfraPge.Foundation.XmlTree
