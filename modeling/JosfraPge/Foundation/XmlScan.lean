import JosfraPge.Foundation.LineText

/-!
# XML 1.0, the lexical level

A document is cut into character data and markup: `scan` answers the list of pairs *(characters,
markup)* and the characters after the last markup.  Comments, CDATA sections and processing
instructions end at their own terminator, a document type declaration behind its internal subset, every
other markup at the first `>` outside quotes.

The cut is compositional.  `IsMarkup m` says that `m` is one complete piece of markup wherever it stands,
and `scan_pieces` that characters free of `<` and complete markup, written one after the other, are cut
back into exactly these pieces; `scan_sound` is the converse.

The rest of the file is character data itself: end-of-line normalisation, references, and
the escape of `&`, `<`, `>` that `charData_escape` shows to be undone by a reader, up to carriage
returns.
-/

namespace JosfraPge.Foundation.XmlScan

open JosfraPge.Foundation.LineText

/-! ## Characters and names -/

/-- The characters XML 1.0 allows in a document. -/
def isXmlChar (c : Char) : Bool :=
  c.toNat == 0x9 || c.toNat == 0xA || c.toNat == 0xD || (0x20 ≤ c.toNat && c.toNat ≤ 0xD7FF) ||
    (0xE000 ≤ c.toNat && c.toNat ≤ 0xFFFD) || 0x10000 ≤ c.toNat

def isSpace (c : Char) : Bool := c == ' ' || c == '\t' || c == '\n' || c == '\r'

/-- The code points a name may start with, as closed ranges. -/
def nameStartRanges : List (ℕ × ℕ) :=
  [(0x3A, 0x3A), (0x41, 0x5A), (0x5F, 0x5F), (0x61, 0x7A), (0xC0, 0xD6), (0xD8, 0xF6),
   (0xF8, 0x2FF), (0x370, 0x37D), (0x37F, 0x1FFF), (0x200C, 0x200D), (0x2070, 0x218F),
   (0x2C00, 0x2FEF), (0x3001, 0xD7FF), (0xF900, 0xFDCF), (0xFDF0, 0xFFFD), (0x10000, 0xEFFFF)]

/-- What a name may hold besides. -/
def nameOtherRanges : List (ℕ × ℕ) :=
  [(0x2D, 0x2E), (0x30, 0x39), (0xB7, 0xB7), (0x300, 0x36F), (0x203F, 0x2040)]

def inRanges (rs : List (ℕ × ℕ)) (c : Char) : Bool := rs.any fun r => r.1 ≤ c.toNat && c.toNat ≤ r.2

def isNameStart (c : Char) : Bool := inRanges nameStartRanges c

def isNameChar (c : Char) : Bool := isNameStart c || inRanges nameOtherRanges c

/-- A name at the start of a text, and what follows it. -/
def takeName : Text → Option (Text × Text)
  | [] => none
  | c :: cs =>
      if isNameStart c then some (c :: cs.takeWhile isNameChar, cs.dropWhile isNameChar) else none

/-! ## Cutting a document into characters and markup -/

/-- The quote that is open behind one more character. -/
def quoteAfter : Option Char → Char → Option Char
  | none, c => if c = '"' ∨ c = '\'' then some c else none
  | some q, c => if c = q then none else some q

/-- The open quote, if any, at the end of a piece of markup. -/
def openQuote (q : Option Char) (m : Text) : Option Char := m.foldl quoteAfter q

/-- What the end of a document type declaration stands in. -/
inductive DoctypePlace where
  | head (quote : Option Char)
  /-- The internal subset, between its declarations. -/
  | subset
  | opened
  | marked
  | dashed
  | declaration (quote : Option Char)
  /-- A comment of the subset, with the dashes that may end it. -/
  | comment (dashes : ℕ)
  | instruction (question : Bool)
  /-- Behind the subset. -/
  | tail
  | done
  | broken
  deriving DecidableEq

def DoctypePlace.next : DoctypePlace → Char → DoctypePlace
  | .head none, c =>
      if c = '>' then .done else if c = '[' then .subset else .head (quoteAfter none c)
  | .head (some q), c => .head (quoteAfter (some q) c)
  | .subset, c => if c = '<' then .opened else if c = ']' then .tail else .subset
  | .opened, c => if c = '!' then .marked else if c = '?' then .instruction false else .broken
  | .marked, c => if c = '-' then .dashed else .declaration (quoteAfter none c)
  | .dashed, c => if c = '-' then .comment 0 else .broken
  | .declaration none, c => if c = '>' then .subset else .declaration (quoteAfter none c)
  | .declaration (some q), c => .declaration (quoteAfter (some q) c)
  | .comment dashes, c =>
      if c = '-' then .comment (dashes + 1) else if c = '>' ∧ 2 ≤ dashes then .subset else .comment 0
  | .instruction question, c =>
      if c = '>' ∧ question = true then .subset else .instruction (c == '?')
  | .tail, c => if c = '>' then .done else if isSpace c then .tail else .broken
  | .done, _ => .broken
  | .broken, _ => .broken

/-- Is this markup, which ends in `>`, complete? -/
def closes (m : Text) : Bool :=
  if "<!--".toList <+: m then 7 ≤ m.length && decide ("-->".toList <:+ m)
  else if "<![CDATA[".toList <+: m then 12 ≤ m.length && decide ("]]>".toList <:+ m)
  else if "<?".toList <+: m then 4 ≤ m.length && decide ("?>".toList <:+ m)
  else if "<!DOCTYPE".toList <+: m then m.foldl DoctypePlace.next (.head none) = .done
  else openQuote none m = none

/-- The scanner collects either characters, or the markup that follows the characters `t`. -/
inductive Mode where
  | chars (t : Text)
  | markup (t m : Text)

/-- The pieces of a document: characters and the markup behind them, and the last characters. -/
abbrev Pieces := List (Text × Text) × Text

def scan : Mode → Text → Option Pieces
  | .chars t, [] => some ([], t)
  | .markup _ _, [] => none
  | .chars t, c :: cs =>
      if c = '<' then scan (.markup t [c]) cs else scan (.chars (t ++ [c])) cs
  | .markup t m, c :: cs =>
      if c = '>' ∧ closes (m ++ [c]) = true then
        (scan (.chars []) cs).map fun p => ((t, m ++ [c]) :: p.1, p.2)
      else scan (.markup t (m ++ [c])) cs

/-- The document made of given pieces. -/
def Pieces.text (p : Pieces) : Text := p.1.flatMap (fun q => q.1 ++ q.2) ++ p.2

/-- `m` is one complete piece of markup, whatever stands before and behind it. -/
def IsMarkup (m : Text) : Prop :=
  ∀ t s, scan (.chars t) (m ++ s) = (scan (.chars []) s).map fun p => ((t, m) :: p.1, p.2)

/-- Characters without `<` are only collected. -/
theorem scan_chars {t : Text} (ht : '<' ∉ t) (t₀ s : Text) :
    scan (.chars t₀) (t ++ s) = scan (.chars (t₀ ++ t)) s := by
  induction t generalizing t₀ with
  | nil => simp
  | cons c cs ih =>
      have hc : c ≠ '<' := fun h => ht (h ▸ List.mem_cons_self)
      rw [List.cons_append, scan, if_neg hc, ih (fun m => ht (List.mem_cons_of_mem _ m))]
      simp

/-- Characters and markup, one after the other, are cut into themselves. -/
theorem scan_cons {t m : Text} (ht : '<' ∉ t) (hm : IsMarkup m) (s : Text) :
    scan (.chars []) (t ++ (m ++ s)) = (scan (.chars []) s).map fun p => ((t, m) :: p.1, p.2) := by
  rw [scan_chars ht, hm, List.nil_append]

/-- **Pieces are cut back into themselves.** -/
theorem scan_pieces {ps : List (Text × Text)} {last : Text}
    (hps : ∀ p ∈ ps, '<' ∉ p.1 ∧ IsMarkup p.2) (hlast : '<' ∉ last) :
    scan (.chars []) (Pieces.text (ps, last)) = some (ps, last) := by
  induction ps with
  | nil =>
      have h := scan_chars hlast [] []
      simpa [Pieces.text, scan] using h
  | cons p ps ih =>
      obtain ⟨ht, hm⟩ := hps p List.mem_cons_self
      have hih := ih fun q hq => hps q (List.mem_cons_of_mem _ hq)
      have htext : Pieces.text (p :: ps, last) = p.1 ++ (p.2 ++ Pieces.text (ps, last)) := by
        simp [Pieces.text]
      rw [htext, scan_cons ht hm, hih]
      rfl

/-- What a scan has yet to find, from either mode: the pieces it answers make up the text, their
characters hold no `<`, and their markup is complete. -/
theorem scan_sound_from (s : Text) :
    (∀ t₀ ps last, '<' ∉ t₀ → scan (.chars t₀) s = some (ps, last) →
      t₀ ++ s = Pieces.text (ps, last) ∧ (∀ p ∈ ps, '<' ∉ p.1 ∧ IsMarkup p.2) ∧ '<' ∉ last) ∧
    (∀ t₀ m₀ ps last, '<' ∉ t₀ → m₀ ≠ [] →
      (∀ t r, scan (.chars t) (m₀ ++ r) = scan (.markup t m₀) r) →
      scan (.markup t₀ m₀) s = some (ps, last) →
      t₀ ++ (m₀ ++ s) = Pieces.text (ps, last) ∧ (∀ p ∈ ps, '<' ∉ p.1 ∧ IsMarkup p.2) ∧
        '<' ∉ last) := by
  induction s with
  | nil =>
      constructor
      · intro t₀ ps last ht₀ h
        simp only [scan, Option.some.injEq, Prod.mk.injEq] at h
        obtain ⟨rfl, rfl⟩ := h
        exact ⟨by simp [Pieces.text], by simp, ht₀⟩
      · intro t₀ m₀ ps last _ _ _ h
        exact absurd h (by simp [scan])
  | cons c cs ih =>
      obtain ⟨ihChars, ihMarkup⟩ := ih
      constructor
      · intro t₀ ps last ht₀ h
        rw [scan] at h
        split at h
        · rename_i hc
          subst hc
          exact ihMarkup t₀ ['<'] ps last ht₀ (by simp) (fun t r => by simp [scan]) h
        · rename_i hc
          have ht : '<' ∉ t₀ ++ [c] := by
            simp only [List.mem_append, List.mem_singleton, not_or]
            exact ⟨ht₀, fun e => hc e.symm⟩
          simpa using ihChars (t₀ ++ [c]) ps last ht h
      · intro t₀ m₀ ps last ht₀ hne hm₀ h
        rw [scan] at h
        split at h
        · -- the markup is complete here
          rename_i hc
          cases hrest : scan (.chars []) cs with
          | none => simp [hrest] at h
          | some p =>
              obtain ⟨ps', last'⟩ := p
              obtain ⟨htext, hgood, hlast⟩ := ihChars [] ps' last' (by simp) hrest
              simp only [hrest, Option.map_some, Option.some.injEq, Prod.mk.injEq] at h
              obtain ⟨rfl, rfl⟩ := h
              have hmark : IsMarkup (m₀ ++ [c]) := by
                intro t r
                rw [List.append_assoc, hm₀, List.singleton_append, scan, if_pos hc]
              refine ⟨?_, ?_, hlast⟩
              · rw [List.nil_append] at htext
                simp [Pieces.text, htext]
              · intro q hq
                rcases List.mem_cons.mp hq with rfl | hq
                · exact ⟨ht₀, hmark⟩
                · exact hgood q hq
        · rename_i hc
          have hstep : ∀ t r, scan (.chars t) (m₀ ++ [c] ++ r) = scan (.markup t (m₀ ++ [c])) r := by
            intro t r
            rw [List.append_assoc, hm₀, List.singleton_append, scan, if_neg hc]
          simpa using ihMarkup t₀ (m₀ ++ [c]) ps last ht₀ (by simp) hstep h

/-- **What the scanner answers are the pieces of the document.** -/
theorem scan_sound {s : Text} {ps : List (Text × Text)} {last : Text}
    (h : scan (.chars []) s = some (ps, last)) :
    s = Pieces.text (ps, last) ∧ (∀ p ∈ ps, '<' ∉ p.1 ∧ IsMarkup p.2) ∧ '<' ∉ last := by
  simpa using (scan_sound_from s).1 [] ps last (by simp) h

/-- Markup can be recognised by scanning it alone. -/
theorem isMarkup_of_scan {m : Text} (h : scan (.chars []) m = some ([([], m)], [])) : IsMarkup m :=
  ((scan_sound h).2.1 ([], m) List.mem_cons_self).2

/-- Markup ends in `>`. -/
theorem scan_ends {s : Text} {mode : Mode} {ps : List (Text × Text)} {last : Text}
    (h : scan mode s = some (ps, last)) : ∀ p ∈ ps, p.2.getLast? = some '>' := by
  induction s generalizing mode ps last with
  | nil =>
      cases mode with
      | chars t =>
          obtain ⟨rfl, rfl⟩ := Prod.mk.inj (Option.some.inj h)
          intro p hp
          exact absurd hp List.not_mem_nil
      | markup t m => exact absurd h (by simp [scan])
  | cons c cs ih =>
      cases mode with
      | chars t =>
          rw [scan] at h
          split at h
          · exact ih h
          · exact ih h
      | markup t m =>
          rw [scan] at h
          split at h
          · rename_i hclose
            obtain ⟨q, hq, hpair⟩ := Option.map_eq_some_iff.mp h
            obtain ⟨rfl, rfl⟩ := Prod.mk.inj hpair
            intro p hp
            rcases List.mem_cons.mp hp with rfl | hp
            · simp [hclose.1]
            · exact ih hq p hp
          · exact ih h

theorem isMarkup_ends {m : Text} (h : IsMarkup m) : m.getLast? = some '>' := by
  have hscan := h [] []
  rw [List.append_nil] at hscan
  exact scan_ends hscan ([], m) (by simp)

/-! ## Character data -/

/-- End-of-line normalisation: carriage return and newline, or a carriage return alone, become a
newline. -/
def normalizeEol : Text → Text
  | [] => []
  | ['\r'] => ['\n']
  | '\r' :: c :: cs => if c = '\n' then '\n' :: normalizeEol cs else '\n' :: normalizeEol (c :: cs)
  | c :: cs => c :: normalizeEol cs

/-- The number a digit string denotes, `none` if it holds another character or is empty. -/
def numeral (base : ℕ) (digitValue : Char → Option ℕ) : Text → Option ℕ
  | [] => none
  | c :: cs =>
      (c :: cs).foldlM (fun n d => (digitValue d).map (base * n + ·)) 0

def decimalDigit (c : Char) : Option ℕ := if c.isDigit then some (c.toNat - '0'.toNat) else none

def hexDigit (c : Char) : Option ℕ :=
  if c.isDigit then some (c.toNat - '0'.toNat)
  else if 'a' ≤ c ∧ c ≤ 'f' then some (c.toNat - 'a'.toNat + 10)
  else if 'A' ≤ c ∧ c ≤ 'F' then some (c.toNat - 'A'.toNat + 10)
  else none

/-- The character with a given code point, if XML allows it. -/
def codePoint (n : ℕ) : Option Char :=
  if n.isValidChar ∧ isXmlChar (Char.ofNat n) = true then some (Char.ofNat n) else none

/-- What the text between `&` and `;` stands for. -/
def reference : Text → Option Char
  | '#' :: 'x' :: digits => (numeral 16 hexDigit digits).bind codePoint
  | '#' :: digits => (numeral 10 decimalDigit digits).bind codePoint
  | name =>
      if name = "amp".toList then some '&'
      else if name = "lt".toList then some '<'
      else if name = "gt".toList then some '>'
      else if name = "apos".toList then some '\''
      else if name = "quot".toList then some '"'
      else none

/-- Replace references; `pending` is the text since an open `&`. -/
def decodeFrom : Option Text → Text → Option Text
  | none, [] => some []
  | some _, [] => none
  | none, c :: cs =>
      if c = '&' then decodeFrom (some []) cs else (decodeFrom none cs).map (c :: ·)
  | some acc, c :: cs =>
      if c = ';' then
        (reference acc).bind fun r => (decodeFrom none cs).map (r :: ·)
      else decodeFrom (some (acc ++ [c])) cs

/-- The text a stretch of characters between markup stands for. -/
def charData (raw : Text) : Option Text :=
  if Occurs "]]>".toList raw then none else decodeFrom none (normalizeEol raw)

/-- The characters that mean themselves between tags: no markup, no reference, no `]]>`, no
carriage return, nothing XML forbids. -/
structure PlainData (s : Text) : Prop where
  chars : ∀ c ∈ s, isXmlChar c = true
  no_markup : '<' ∉ s
  no_reference : '&' ∉ s
  no_cr : '\r' ∉ s
  no_section_end : ¬ Occurs "]]>".toList s

@[simp] theorem normalizeEol_cons {c : Char} (hc : c ≠ '\r') (cs : Text) :
    normalizeEol (c :: cs) = c :: normalizeEol cs := by
  cases cs <;> simp [normalizeEol, hc]

theorem normalizeEol_append {s : Text} (hs : '\r' ∉ s) (r : Text) :
    normalizeEol (s ++ r) = s ++ normalizeEol r := by
  induction s with
  | nil => rfl
  | cons c cs ih =>
      have hc : c ≠ '\r' := fun h => hs (h ▸ List.mem_cons_self)
      rw [List.cons_append, normalizeEol_cons hc, ih (fun m => hs (List.mem_cons_of_mem _ m)),
        List.cons_append]

theorem normalizeEol_of_not_mem {s : Text} (hs : '\r' ∉ s) : normalizeEol s = s := by
  simpa [normalizeEol] using normalizeEol_append hs []

theorem cr_not_mem_normalizeEol (s : Text) : '\r' ∉ normalizeEol s := by
  induction s using normalizeEol.induct with
  | case1 => simp [normalizeEol]
  | case2 => simp [normalizeEol]
  | case3 cs ih => simpa [normalizeEol] using ih
  | case4 c cs hc ih => simpa [normalizeEol, hc] using ih
  | case5 c cs h1 h2 ih =>
      have hc : c ≠ '\r' := by
        rintro rfl
        cases cs with
        | nil => exact h1 rfl rfl
        | cons d ds => exact h2 d ds rfl rfl
      rw [normalizeEol_cons hc]
      simpa using ⟨hc.symm, ih⟩

/-- A reader keeps a text exactly when it holds no carriage return. -/
theorem normalizeEol_eq_self_iff (s : Text) : normalizeEol s = s ↔ '\r' ∉ s := by
  constructor
  · intro h
    rw [← h]
    exact cr_not_mem_normalizeEol s
  · exact normalizeEol_of_not_mem

theorem decodeFrom_plain {s : Text} (hs : '&' ∉ s) : decodeFrom none s = some s := by
  induction s with
  | nil => rfl
  | cons c cs ih =>
      have hc : c ≠ '&' := fun h => hs (h ▸ List.mem_cons_self)
      rw [decodeFrom, if_neg hc, ih fun m => hs (List.mem_cons_of_mem _ m)]
      rfl

/-- Plain data reads as itself. -/
theorem charData_plain {s : Text} (hs : PlainData s) : charData s = some s := by
  rw [charData, if_neg hs.no_section_end, normalizeEol_of_not_mem hs.no_cr,
    decodeFrom_plain hs.no_reference]

/-! ## Escaping -/

/-- What an escape writes for one character. -/
def escapeChar (c : Char) : Text :=
  if c = '&' then "&amp;".toList
  else if c = '<' then "&lt;".toList
  else if c = '>' then "&gt;".toList
  else [c]

/-- Replace `&`, `<` and `>` by their entities. -/
def escape (s : Text) : Text := s.flatMap escapeChar

@[simp] theorem escape_nil : escape [] = [] := rfl

@[simp] theorem escape_cons (c : Char) (cs : Text) : escape (c :: cs) = escapeChar c ++ escape cs := rfl

theorem decodeFrom_escapeChar (c : Char) (s : Text) :
    decodeFrom none (escapeChar c ++ s) = (decodeFrom none s).map (c :: ·) := by
  unfold escapeChar
  split
  · rename_i h; subst h; simp [decodeFrom, reference]
  · split
    · rename_i h; subst h; simp [decodeFrom, reference]
    · split
      · rename_i h; subst h; simp [decodeFrom, reference]
      · rename_i h _ _
        simp [decodeFrom, h]

theorem decodeFrom_escape (s : Text) : decodeFrom none (escape s) = some s := by
  induction s with
  | nil => rfl
  | cons c cs ih => rw [escape_cons, decodeFrom_escapeChar, ih, Option.map_some]

/-- The escape writes neither markup nor carriage returns of its own. -/
theorem escapeChar_mem {c d : Char} (h : d ∈ escapeChar c) :
    d ≠ '<' ∧ d ≠ '>' ∧ (d = '\r' → c = '\r') ∧ (isXmlChar c = true → isXmlChar d = true) := by
  have hentity : ∀ e ∈ "&ampltg;".toList, e ≠ '<' ∧ e ≠ '>' ∧ e ≠ '\r' ∧ isXmlChar e = true := by
    decide
  have hwrap : d ∈ "&ampltg;".toList →
      d ≠ '<' ∧ d ≠ '>' ∧ (d = '\r' → c = '\r') ∧ (isXmlChar c = true → isXmlChar d = true) := by
    intro hd
    obtain ⟨h1, h2, h3, h4⟩ := hentity d hd
    exact ⟨h1, h2, fun h => absurd h h3, fun _ => h4⟩
  unfold escapeChar at h
  split at h
  · exact hwrap ((by decide : "&amp;".toList ⊆ "&ampltg;".toList) h)
  · split at h
    · exact hwrap ((by decide : "&lt;".toList ⊆ "&ampltg;".toList) h)
    · split at h
      · exact hwrap ((by decide : "&gt;".toList ⊆ "&ampltg;".toList) h)
      · rename_i h1 h2 h3
        rw [List.mem_singleton.mp h]
        exact ⟨h2, h3, id, id⟩

theorem normalizeEol_escape (s : Text) : normalizeEol (escape s) = escape (normalizeEol s) := by
  have hesc : ∀ c, c ≠ '\r' → '\r' ∉ escapeChar c := fun c hc hmem =>
    hc ((escapeChar_mem hmem).2.2.1 rfl)
  have hcr : escapeChar '\r' = ['\r'] := by decide
  have hnl : escapeChar '\n' = ['\n'] := by decide
  -- an escaped text begins with a newline only if the text does
  have hhead : ∀ c cs, c ≠ '\n' → ∃ d ds, escape (c :: cs) = d :: ds ∧ d ≠ '\n' := by
    intro c cs hc
    rw [escape_cons]
    unfold escapeChar
    split
    · exact ⟨'&', _, rfl, by decide⟩
    · split
      · exact ⟨'&', _, rfl, by decide⟩
      · split
        · exact ⟨'&', _, rfl, by decide⟩
        · exact ⟨c, _, rfl, hc⟩
  induction s using normalizeEol.induct with
  | case1 => rfl
  | case2 => rfl
  | case3 cs ih => simp [normalizeEol, hcr, hnl, ih]
  | case4 c cs hc ih =>
      obtain ⟨d, ds, hd, hdn⟩ := hhead c cs hc
      rw [escape_cons, hcr, List.singleton_append, hd, normalizeEol, if_neg hdn, ← hd, ih,
        normalizeEol, if_neg hc, escape_cons, hnl, List.singleton_append]
  | case5 c cs h1 h2 ih =>
      have hc : c ≠ '\r' := by
        rintro rfl
        cases cs with
        | nil => exact h1 rfl rfl
        | cons d ds => exact h2 d ds rfl rfl
      rw [escape_cons, normalizeEol_append (hesc c hc), ih, normalizeEol_cons hc, escape_cons]

/-- An escaped text holds no markup. -/
theorem escape_no_markup (s : Text) : '<' ∉ escape s ∧ '>' ∉ escape s := by
  constructor <;>
  · intro h
    obtain ⟨c, -, hmem⟩ := List.mem_flatMap.mp h
    have := escapeChar_mem hmem
    simp at this

theorem escape_xmlChar {s : Text} (hs : ∀ c ∈ s, isXmlChar c = true) :
    ∀ c ∈ escape s, isXmlChar c = true := by
  intro d hd
  obtain ⟨c, hc, hmem⟩ := List.mem_flatMap.mp hd
  exact (escapeChar_mem hmem).2.2.2 (hs c hc)

/-- **Reading an escaped text.**  The reader gets the text back with its line ends normalised. -/
theorem charData_escape (s : Text) : charData (escape s) = some (normalizeEol s) := by
  have hend : ¬ Occurs "]]>".toList (escape s) := fun h =>
    (escape_no_markup s).2 (h.subset (by decide))
  rw [charData, if_neg hend, normalizeEol_escape, decodeFrom_escape]

end JosfraPge.Foundation.XmlScan
