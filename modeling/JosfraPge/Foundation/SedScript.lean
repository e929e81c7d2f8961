import JosfraPge.Foundation.LinePattern
import JosfraPge.Foundation.DelimitedField

/-!
# The substitute command of GNU sed

`readSubstitution` reads the text of an `s` command the way GNU sed does: `matchSlash` cuts out
pattern and replacement at the unescaped delimiter, `readReplacement` splits the replacement into
literal characters and group references, flags come last.  `runScript` applies the command to
every line.

GNU's letter escapes (`\n`, `\t`, `\xHH`, `\U` and so on) and other commands are outside the fragment;
the reader then answers `outsideFragment`, never a wrong command.

* `readReplacement_unslashed`: a replacement text quoted by a backslash before every backslash,
  ampersand and delimiter reads as that text literally, between any two group references.
* `substituteFirst_field`: the substitution that keeps two groups around a delimited field is
  `replaceField`.
-/

namespace JosfraPge.Foundation.SedScript

open JosfraPge.Foundation.LineText
open JosfraPge.Foundation.LinePattern
open JosfraPge.Foundation.DelimitedField

/-- Why a script is refused. -/
inductive SedError where
  | unterminated
  | invalidReference
  | outsideFragment
  deriving DecidableEq, Repr

/-- A replacement is made of literal characters and group references; group `0` is the whole
match. -/
inductive Part where
  | char (c : Char)
  | group (n : ℕ)
  deriving DecidableEq, Repr

/-- A substitute command. -/
structure Substitution where
  pattern : List Item
  replacement : List Part
  everywhere : Bool
  deriving DecidableEq, Repr

/-! ## Reading the command -/

/-- What `matchSlash` keeps of a backslash and the character after it: `\n` is a newline in a
pattern, an escaped delimiter loses its backslash (except `&` in a replacement), an escaped newline
too, and every other pair is kept for the later stages. -/
def keepEscape (slash : Char) (inPattern : Bool) (e : Char) : Text :=
  if e = 'n' ∧ inPattern then ['\n']
  else if e ≠ '\n' ∧ (e ≠ slash ∨ (inPattern = false ∧ e = '&')) then ['\\', e]
  else [e]

/-- Read up to the next unescaped delimiter; a newline or the end of the script before it is an
error. -/
def matchSlash (slash : Char) (inPattern : Bool) : Text → Except SedError (Text × Text)
  | [] => .error .unterminated
  | [c] => if c = slash ∧ c ≠ '\n' then .ok ([], []) else .error .unterminated
  | c :: e :: cs =>
      if c = '\n' then .error .unterminated
      else if c = slash then .ok ([], e :: cs)
      else if c = '\\' then
        (matchSlash slash inPattern cs).map fun p => (keepEscape slash inPattern e ++ p.1, p.2)
      else (matchSlash slash inPattern (e :: cs)).map fun p => (c :: p.1, p.2)

/-- Split a replacement into its parts. -/
def readReplacement : Text → Except SedError (List Part)
  | [] => .ok []
  | ['\\'] => .ok [.char '\\']
  | '\\' :: e :: cs =>
      if e.isDigit then (readReplacement cs).map (.group (e.toNat - '0'.toNat) :: ·)
      else if e.isAlpha then .error .outsideFragment
      else (readReplacement cs).map (.char e :: ·)
  | c :: cs =>
      if c = '&' then (readReplacement cs).map (.group 0 :: ·)
      else (readReplacement cs).map (.char c :: ·)

/-- The number of groups of a pattern. -/
def groupCount (is : List Item) : ℕ := is.count .closeGroup

/-- Read an `s` command: delimiter, pattern, replacement, flags. -/
def readSubstitution (fl : Flavour) : Text → Except SedError Substitution
  | 's' :: slash :: script => do
      let (patternText, afterPattern) ← matchSlash slash true script
      let (replacementText, flags) ← matchSlash slash false afterPattern
      let everywhere ←
        if flags = [] then .ok false
        else if flags = ['g'] then .ok true
        else .error .outsideFragment
      let replacement ← readReplacement replacementText
      match readPattern fl patternText with
      | none => .error .outsideFragment
      | some pattern =>
          if replacement.all (fun p => match p with
              | .char _ => true
              | .group n => n ≤ groupCount pattern)
          then .ok ⟨pattern, replacement, everywhere⟩
          else .error .invalidReference
  | _ => .error .outsideFragment

/-! ## Running the command -/

/-- The text a replacement stands for at a match. -/
def expand (m : Match) (parts : List Part) : Text :=
  parts.flatMap fun p =>
    match p with
    | .char c => [c]
    | .group 0 => m.whole
    | .group (n + 1) => m.groups.getD n []

/-- Replace the leftmost match of a line. -/
def substituteFirst (is : List Item) (parts : List Part) : Text → Text
  | [] =>
      match matchHere is [] with
      | some m => expand m parts ++ m.rest
      | none => []
  | c :: s =>
      match matchHere is (c :: s) with
      | some m => expand m parts ++ m.rest
      | none => c :: substituteFirst is parts s

/-- Replace every match of a line, left to right.  An empty match right behind a match is
skipped.  `fuel` bounds the number of positions; the length of the line and one more suffices. -/
def substituteAll (is : List Item) (parts : List Part) : ℕ → Bool → Text → Text
  | 0, _, s => s
  | fuel + 1, justMatched, s =>
      let step : Text → Text := fun before =>
        match s with
        | [] => before
        | c :: cs => before ++ c :: substituteAll is parts fuel false cs
      match matchHere is s with
      | none => step []
      | some m =>
          if m.whole = [] then step (if justMatched then [] else expand m parts)
          else expand m parts ++ substituteAll is parts fuel true m.rest

/-- Apply a substitution to one line. -/
def Substitution.onLine (sub : Substitution) (line : Text) : Text :=
  if sub.everywhere then
    substituteAll sub.pattern sub.replacement (line.length + 1) false line
  else substituteFirst sub.pattern sub.replacement line

/-- Run a one-command script over a text. -/
def runScript (fl : Flavour) (script text : Text) : Except SedError Text :=
  (readSubstitution fl script).map fun sub => mapLines sub.onLine text

/-- The quiet search of `grep`: does the basic pattern match on some line? -/
def grepQuiet (pattern text : Text) : Except SedError Bool :=
  match readPattern .basic pattern with
  | none => .error .outsideFragment
  | some is => .ok ((lines text).any (searches is))

/-! ## Reading literal stretches and quoted replacements -/

/-- A stretch without delimiter, backslash and newline is cut out as it is. -/
theorem matchSlash_plain {slash : Char} {inPattern : Bool} {w : Text}
    (hw : ∀ c ∈ w, c ≠ slash ∧ c ≠ '\\' ∧ c ≠ '\n') (rest : Text) :
    matchSlash slash inPattern (w ++ rest)
      = (matchSlash slash inPattern rest).map fun p => (w ++ p.1, p.2) := by
  induction w with
  | nil => cases h : matchSlash slash inPattern rest <;> simp [h, Except.map]
  | cons c cs ih =>
      obtain ⟨h1, h2, h3⟩ := hw c List.mem_cons_self
      have hih := ih fun d hd => hw d (List.mem_cons_of_mem _ hd)
      cases hcs : cs ++ rest with
      | nil =>
          obtain ⟨rfl, rfl⟩ := List.append_eq_nil_iff.mp hcs
          simp [matchSlash, h1, Except.map]
      | cons e es =>
          rw [hcs] at hih
          rw [List.cons_append, hcs, matchSlash, if_neg h3, if_neg h1, if_neg h2, hih]
          cases matchSlash slash inPattern rest <;> simp [Except.map]

/-- The unescaped delimiter ends the stretch. -/
theorem matchSlash_slash {slash : Char} (hs : slash ≠ '\n') (inPattern : Bool) (rest : Text) :
    matchSlash slash inPattern (slash :: rest) = .ok ([], rest) := by
  cases rest <;> simp [matchSlash, hs]

/-- Put a backslash before every backslash, ampersand and delimiter. -/
def escapeFor (slash : Char) (v : Text) : Text :=
  v.flatMap fun c => if c = '\\' ∨ c = '&' ∨ c = slash then ['\\', c] else [c]

/-- What `matchSlash` leaves of a quoted replacement: the delimiters have lost their backslash. -/
def unslashed (v : Text) : Text :=
  v.flatMap fun c => if c = '\\' ∨ c = '&' then ['\\', c] else [c]

/-- The delimiter does not end a quoted replacement early. -/
theorem matchSlash_escapeFor {slash : Char} (hs : slash ≠ '\\') {v : Text} (hv : '\n' ∉ v)
    (rest : Text) :
    matchSlash slash false (escapeFor slash v ++ rest)
      = (matchSlash slash false rest).map fun p => (unslashed v ++ p.1, p.2) := by
  induction v with
  | nil => cases h : matchSlash slash false rest <;> simp [escapeFor, unslashed, h, Except.map]
  | cons c cs ih =>
      have hc : c ≠ '\n' := fun e => hv (e ▸ List.mem_cons_self)
      have hih := ih fun m => hv (List.mem_cons_of_mem _ m)
      by_cases hq : c = '\\' ∨ c = '&' ∨ c = slash
      · have hesc : escapeFor slash (c :: cs) = '\\' :: c :: escapeFor slash cs := by
          simp [escapeFor, hq]
        have hkeep : keepEscape slash false c ++ unslashed cs = unslashed (c :: cs) := by
          by_cases hb : c = '\\' ∨ c = '&'
          · have hpair : c ≠ slash ∨ c = '&' := by
              rcases hb with rfl | rfl
              · exact Or.inl hs.symm
              · exact Or.inr rfl
            simp [keepEscape, unslashed, hb, hc, hpair]
          · have hcs : c = slash := by tauto
            have hamp : c ≠ '&' := fun h => hb (Or.inr h)
            subst hcs
            simp [keepEscape, unslashed, hs, hamp]
        rw [hesc, List.cons_append, List.cons_append, matchSlash, if_neg (by decide),
          if_neg hs.symm, if_pos rfl, hih, ← hkeep]
        cases matchSlash slash false rest <;> simp [Except.map]
      · have hesc : escapeFor slash (c :: cs) = [c] ++ escapeFor slash cs := by
          simp [escapeFor, hq]
        have huns : unslashed (c :: cs) = c :: unslashed cs := by
          have hb : ¬(c = '\\' ∨ c = '&') := by tauto
          simp [unslashed, hb]
        have hplain : ∀ d ∈ [c], d ≠ slash ∧ d ≠ '\\' ∧ d ≠ '\n' := by
          simp only [List.mem_singleton, forall_eq]
          tauto
        rw [hesc, List.append_assoc, matchSlash_plain hplain, hih, huns]
        cases matchSlash slash false rest <;> simp [Except.map]

/-- A newline in a quoted replacement ends the script inside the command. -/
theorem matchSlash_escapeFor_newline {slash : Char} (hs : slash ≠ '\\') {v : Text}
    (hv : '\n' ∈ v) (hn : slash ≠ '\n') (rest : Text) :
    matchSlash slash false (escapeFor slash v ++ rest) = .error .unterminated := by
  obtain ⟨a, b, rfl, ha⟩ := List.eq_append_cons_of_mem hv
  have hesc : escapeFor slash (a ++ '\n' :: b)
      = escapeFor slash a ++ '\n' :: escapeFor slash b := by
    simp [escapeFor, hn.symm]
  have hstop : matchSlash slash false ('\n' :: (escapeFor slash b ++ rest))
      = .error .unterminated := by
    cases escapeFor slash b ++ rest <;> simp [matchSlash]
  rw [hesc, List.append_assoc, matchSlash_escapeFor hs ha, List.cons_append, hstop]
  rfl

/-- No character of a quoted text is taken for a group reference or an escape. -/
theorem readReplacement_unslashed (v rest : Text) :
    readReplacement (unslashed v ++ rest)
      = (readReplacement rest).map fun parts => v.map .char ++ parts := by
  induction v with
  | nil => cases h : readReplacement rest <;> simp [unslashed, h, Except.map]
  | cons c cs ih =>
      by_cases hb : c = '\\' ∨ c = '&'
      · have huns : unslashed (c :: cs) = '\\' :: c :: unslashed cs := by simp [unslashed, hb]
        have hdigit : c.isDigit = false := by rcases hb with rfl | rfl <;> decide
        have halpha : c.isAlpha = false := by rcases hb with rfl | rfl <;> decide
        rw [huns, List.cons_append, List.cons_append, readReplacement, hdigit, halpha]
        simp only [Bool.false_eq_true, if_false, ih]
        cases readReplacement rest <;> simp [Except.map]
      · have huns : unslashed (c :: cs) = c :: unslashed cs := by simp [unslashed, hb]
        have h1 : c ≠ '\\' := fun h => hb (Or.inl h)
        have h2 : c ≠ '&' := fun h => hb (Or.inr h)
        rw [huns, List.cons_append, readReplacement.eq_4 _ _ (fun h => absurd h h1)
          (fun _ _ h => absurd h h1), if_neg h2, ih]
        cases readReplacement rest <;> simp [Except.map]

/-! ## What the two kinds of command do -/

/-- Searching for a text without special characters is looking for a line it occurs on. -/
theorem grepQuiet_plain {w : Text} (hw : ∀ c ∈ w, isSpecial .basic c = false) (text : Text) :
    grepQuiet w text = .ok (decide (∃ l ∈ lines text, Occurs w l)) := by
  have hend : readItems .basic .items false [] = some [] := rfl
  have hread := readItems_chars hw false [] hend (by simp)
  rw [List.append_nil, List.append_nil] at hread
  have hpattern : readPattern .basic w = some (chars w) := by
    rw [readPattern, hread, Option.bind_some, if_neg (asterisk_not_mem_chars w)]
  have hany : (lines text).any (searches (chars w)) = decide (∃ l ∈ lines text, Occurs w l) := by
    rw [Bool.eq_iff_iff, List.any_eq_true, decide_eq_true_iff]
    simp only [searches_chars]
  simp only [grepQuiet, hpattern, hany]

/-- A command that rewrites every character of a class works character by character. -/
theorem substituteAll_one (a : Atom) (parts : List Part) (s : Text) (fuel : ℕ) (justMatched : Bool)
    (hfuel : s.length < fuel) :
    substituteAll [.one a] parts fuel justMatched s
      = s.flatMap fun c => if a.accepts c then expand ⟨[c], [], []⟩ parts else [c] := by
  induction s generalizing fuel justMatched with
  | nil =>
      cases fuel with
      | zero => rfl
      | succ fuel => rfl
  | cons c cs ih =>
      cases fuel with
      | zero => simp at hfuel
      | succ fuel =>
          have hlen : cs.length < fuel := by simpa using hfuel
          by_cases hc : a.accepts c = true
          · have hm : matchHere [.one a] (c :: cs) = some ⟨[c], [], cs⟩ := by
              simp [matchHere, matchesAt, matchesFrom, hc, longest]
            simp only [substituteAll, hm, List.cons_ne_nil, if_false, ih fuel true hlen,
              List.flatMap_cons, hc, if_true]
            rfl
          · have hm : matchHere [.one a] (c :: cs) = none := by
              simp [matchHere, matchesAt, matchesFrom, hc, longest]
            simp [substituteAll, hm, ih fuel false hlen, hc]

/-- A line filter that works character by character and keeps newlines ignores the lines. -/
theorem mapLines_flatMap {g : Char → Text} (hg : g '\n' = ['\n']) (s : Text) :
    mapLines (·.flatMap g) s = s.flatMap g := by
  have hjoin : ∀ ls r, joinLines (ls.map (·.flatMap g)) (r.flatMap g) = (joinLines ls r).flatMap g := by
    intro ls r
    induction ls with
    | nil => rfl
    | cons l ls ih => simp [ih, hg]
  conv_rhs => rw [← joinLines_splitLines s]
  rw [← hjoin, mapLines]
  congr 1
  split
  · rename_i hr
    rw [hr]
    rfl
  · rfl

/-- The pattern of a delimited field, its two literals kept in groups. -/
def fieldItems (op : Text) (d : Char) (cl : Text) : List Item :=
  .openGroup :: (chars op ++ (.closeGroup :: .many (.bracket true [d]) :: .openGroup ::
    (chars (d :: cl) ++ [.closeGroup])))

/-- Keep the two groups and put `v` between them. -/
def fieldParts (v : Text) : List Part := .group 1 :: (v.map .char ++ [.group 2])

theorem expand_fieldParts (whole op cl rest v : Text) :
    expand ⟨whole, [op, cl], rest⟩ (fieldParts v) = op ++ (v ++ cl) := by
  have hv : ∀ w : Text, expand ⟨whole, [op, cl], rest⟩ (w.map .char) = w := by
    intro w
    induction w with
    | nil => rfl
    | cons c cs ih => simpa [expand] using ih
  have hsplit : expand ⟨whole, [op, cl], rest⟩ (fieldParts v)
      = op ++ (expand ⟨whole, [op, cl], rest⟩ (v.map .char) ++ (cl ++ [])) := by
    simp [fieldParts, expand]
  rw [hsplit, hv, List.append_nil]

/-- The field pattern matches exactly where a field starts. -/
theorem matchHere_fieldItems (op : Text) (d : Char) (cl s : Text) :
    matchHere (fieldItems op d cl) s
      = (field? op d cl s).map fun p => ⟨op ++ (p.1 ++ d :: cl), [op, d :: cl], p.2⟩ := by
  have hacc : (Atom.bracket true [d]).accepts = (· != d) := by
    funext c
    simp [Atom.accepts, bne, Bool.beq_eq_decide_eq, eq_comm]
  unfold fieldItems matchHere matchesAt
  rw [matchesFrom]
  by_cases hop : op <+: s
  · obtain ⟨r, rfl⟩ := hop
    rw [matchesFrom_chars, matchesFrom, matchesFrom_many_stop, hacc, matchesFrom]
    · by_cases hcl : (d :: cl) <+: r.dropWhile (· != d)
      · obtain ⟨b, hb⟩ := hcl
        have hf : field? op d cl (op ++ r) = some (r.takeWhile (· != d), b) := by
          unfold field?
          rw [List.drop_left, ← hb, if_pos ⟨List.prefix_append _ _, List.prefix_append _ _⟩,
            List.drop_left]
        rw [← hb, matchesFrom_chars, matchesFrom, matchesFrom, hf]
        simp [longest]
      · rw [matchesFrom_chars_ne hcl]
        unfold field?
        rw [if_neg (by rw [List.drop_left]; exact fun h => hcl h.2)]
        rfl
    · intro current groups whole c r' hc
      rw [matchesFrom]
      refine matchesFrom_chars_ne (fun hp => ?_) _ _ _ _
      have hdc : d = c := (List.cons_prefix_cons.mp hp).1
      rw [hacc, hdc] at hc
      simp at hc
  · rw [matchesFrom_chars_ne hop]
    unfold field?
    rw [if_neg fun h => hop h.1]
    rfl

/-- Keeping the groups of the field pattern rewrites the first field. -/
theorem substituteFirst_field (op : Text) (d : Char) (cl v s : Text) :
    substituteFirst (fieldItems op d cl) (fieldParts v) s = replaceField op d cl v s := by
  induction s with
  | nil =>
      have hm : matchHere (fieldItems op d cl) [] = none := by
        rw [matchHere_fieldItems, field?_nil]
        rfl
      simp [substituteFirst, hm, replaceField]
  | cons c cs ih =>
      rw [substituteFirst, matchHere_fieldItems, replaceField]
      cases hf : field? op d cl (c :: cs) with
      | none => simp [ih]
      | some p => simp [expand_fieldParts]

/-! ## The field command, from its text to its effect -/

/-- The source text of the field pattern. -/
def fieldPatternText (op : Text) (d : Char) (cl : Text) : Text :=
  '(' :: (op ++ (')' :: '[' :: '^' :: d :: ']' :: '*' :: '(' :: (d :: cl ++ [')'])))

/-- The source text of the command that rewrites a field to a quoted value. -/
def fieldScript (slash : Char) (op : Text) (d : Char) (cl escaped : Text) : Text :=
  's' :: slash :: (fieldPatternText op d cl ++ (slash :: '\\' :: '1' ::
    (escaped ++ ['\\', '2', slash])))

theorem readPattern_field {op : Text} {d : Char} {cl : Text}
    (hop : ∀ c ∈ op, isSpecial .extended c = false)
    (hcl : ∀ c ∈ d :: cl, isSpecial .extended c = false) (hd : d ≠ '-') :
    readPattern .extended (fieldPatternText op d cl) = some (fieldItems op d cl) := by
  have hd' : d ≠ '[' := by
    rintro rfl
    exact absurd (hcl '[' List.mem_cons_self) (by decide)
  have hclose : readItems .extended .items true [')'] = some [.closeGroup] := rfl
  have hsecond := readItems_chars hcl true [')'] hclose (by simp)
  have hmiddle : readItems .extended .items true
      (')' :: '[' :: '^' :: d :: ']' :: '*' :: '(' :: (d :: cl ++ [')']))
      = some (.closeGroup :: .many (.bracket true [d]) :: .openGroup ::
          (chars (d :: cl) ++ [.closeGroup])) := by
    generalize d :: cl ++ [')'] = tail at hsecond
    simp [readItems, hd, hd', hsecond, attach]
  have hall := readItems_chars hop true _ hmiddle (by simp)
  have hread : readItems .extended .items false (fieldPatternText op d cl)
      = some (fieldItems op d cl) := by
    rw [fieldPatternText, readItems, if_neg (by decide), if_neg (by decide), if_pos ⟨rfl, rfl, rfl⟩,
      hall]
    rfl
  have hast : Item.asterisk ∉ fieldItems op d cl := by
    simp [fieldItems, asterisk_not_mem_chars]
  rw [readPattern, hread, Option.bind_some, if_neg hast]

theorem groupCount_fieldItems (op : Text) (d : Char) (cl : Text) :
    groupCount (fieldItems op d cl) = 2 := by
  have hchars : ∀ w, (chars w).count .closeGroup = 0 := by
    intro w
    rw [List.count_eq_zero]
    simp [chars]
  simp [groupCount, fieldItems, hchars]

section FieldScript

variable {slash : Char} {op : Text} {d : Char} {cl : Text}

/-- What a delimiter must not be, and what the two literals must not hold, for the field command
to be cut at the intended places. -/
structure FieldSyntax (slash : Char) (op : Text) (d : Char) (cl : Text) : Prop where
  slash_plain : slash ∉ "\\\n()[]^*12".toList
  not_dash : d ≠ '-'
  opening : ∀ c ∈ op, isSpecial .extended c = false ∧ c ≠ slash ∧ c ≠ '\n'
  closing : ∀ c ∈ d :: cl, isSpecial .extended c = false ∧ c ≠ slash ∧ c ≠ '\n'

/-- The pattern text holds no delimiter, backslash or newline. -/
theorem FieldSyntax.pattern_plain (h : FieldSyntax slash op d cl) :
    ∀ c ∈ fieldPatternText op d cl, c ≠ slash ∧ c ≠ '\\' ∧ c ≠ '\n' := by
  have hpunct : ∀ c ∈ "()[]^*".toList, c ≠ slash ∧ c ≠ '\\' ∧ c ≠ '\n' := by
    intro c hc
    have hmem : c ∈ "\\\n()[]^*12".toList :=
      List.mem_append_left ['1', '2'] (List.mem_append_right ['\\', '\n'] hc)
    refine ⟨fun hcs => h.slash_plain (hcs ▸ hmem), ?_, ?_⟩
    · rintro rfl
      exact absurd hc (by decide)
    · rintro rfl
      exact absurd hc (by decide)
  have hliteral : ∀ c, isSpecial .extended c = false ∧ c ≠ slash ∧ c ≠ '\n' →
      c ≠ slash ∧ c ≠ '\\' ∧ c ≠ '\n' := by
    rintro c ⟨hspecial, hs, hn⟩
    refine ⟨hs, ?_, hn⟩
    rintro rfl
    exact absurd hspecial (by decide)
  have hd := hliteral d (h.closing d List.mem_cons_self)
  intro c hc
  simp only [fieldPatternText, List.mem_cons, List.mem_append, List.not_mem_nil, or_false] at hc
  rcases hc with rfl | hc | rfl | rfl | rfl | rfl | rfl | rfl | rfl | (rfl | hc) | rfl
  all_goals first
    | exact hpunct _ (by decide)
    | exact hd
    | exact hliteral _ (h.opening _ hc)
    | exact hliteral _ (h.closing _ (List.mem_cons_of_mem _ hc))

/-- **The field command reads as intended whatever the value is.**  The quoted value neither ends
the command, nor refers to a group, nor adds a flag. -/
theorem readSubstitution_field (h : FieldSyntax slash op d cl) {v : Text} (hv : '\n' ∉ v) :
    readSubstitution .extended (fieldScript slash op d cl (escapeFor slash v))
      = .ok ⟨fieldItems op d cl, fieldParts v, false⟩ := by
  have hbs : slash ≠ '\\' := by rintro rfl; exact h.slash_plain (by decide)
  have hnl : slash ≠ '\n' := by rintro rfl; exact h.slash_plain (by decide)
  have h1 : '1' ≠ slash := by rintro rfl; exact h.slash_plain (by decide)
  have h2 : '2' ≠ slash := by rintro rfl; exact h.slash_plain (by decide)
  have hpattern : matchSlash slash true (fieldPatternText op d cl ++ (slash :: '\\' :: '1' ::
      (escapeFor slash v ++ ['\\', '2', slash])))
      = .ok (fieldPatternText op d cl, '\\' :: '1' :: (escapeFor slash v ++ ['\\', '2', slash])) := by
    rw [matchSlash_plain h.pattern_plain, matchSlash_slash hnl]
    simp [Except.map]
  have hend : matchSlash slash false ['\\', '2', slash] = .ok (['\\', '2'], []) := by
    simp [matchSlash, hbs.symm, hnl, keepEscape, h2, Except.map]
  have hreplacement : matchSlash slash false
      ('\\' :: '1' :: (escapeFor slash v ++ ['\\', '2', slash]))
      = .ok ('\\' :: '1' :: (unslashed v ++ ['\\', '2']), []) := by
    rw [matchSlash, if_neg (by decide), if_neg hbs.symm, if_pos rfl, matchSlash_escapeFor hbs hv,
      hend]
    simp [Except.map, keepEscape, h1]
  have htail : readReplacement ['\\', '2'] = .ok [.group 2] := rfl
  have hparts : readReplacement ('\\' :: '1' :: (unslashed v ++ ['\\', '2']))
      = .ok (fieldParts v) := by
    rw [readReplacement, if_pos (by decide), readReplacement_unslashed, htail]
    rfl
  have hpat := readPattern_field (fun c hc => (h.opening c hc).1) (fun c hc => (h.closing c hc).1)
    h.not_dash
  have hrefs : ∀ p ∈ fieldParts v, (match p with
      | .char _ => true
      | .group n => decide (n ≤ groupCount (fieldItems op d cl))) = true := by
    intro p hp
    rw [groupCount_fieldItems]
    simp only [fieldParts, List.mem_cons, List.mem_append, List.mem_map, List.not_mem_nil,
      or_false] at hp
    rcases hp with rfl | ⟨c, -, rfl⟩ | rfl <;> rfl
  simp only [fieldScript, readSubstitution, hpattern, hreplacement, hparts, hpat,
    bind, Except.bind, if_true, List.all_eq_true.mpr hrefs]

/-- A newline in the value makes the command a syntax error. -/
theorem readSubstitution_field_newline (h : FieldSyntax slash op d cl) {v : Text} (hv : '\n' ∈ v) :
    readSubstitution .extended (fieldScript slash op d cl (escapeFor slash v))
      = .error .unterminated := by
  have hbs : slash ≠ '\\' := by rintro rfl; exact h.slash_plain (by decide)
  have hnl : slash ≠ '\n' := by rintro rfl; exact h.slash_plain (by decide)
  have hpattern : matchSlash slash true (fieldPatternText op d cl ++ (slash :: '\\' :: '1' ::
      (escapeFor slash v ++ ['\\', '2', slash])))
      = .ok (fieldPatternText op d cl, '\\' :: '1' :: (escapeFor slash v ++ ['\\', '2', slash])) := by
    rw [matchSlash_plain h.pattern_plain, matchSlash_slash hnl]
    simp [Except.map]
  have hreplacement : matchSlash slash false
      ('\\' :: '1' :: (escapeFor slash v ++ ['\\', '2', slash])) = .error .unterminated := by
    rw [matchSlash, if_neg (by decide), if_neg hbs.symm, if_pos rfl,
      matchSlash_escapeFor_newline hbs hv hnl]
    rfl
  simp only [fieldScript, readSubstitution, hpattern, hreplacement, bind, Except.bind]

/-- **The field command rewrites the first field of every line.** -/
theorem runScript_field (h : FieldSyntax slash op d cl) {v : Text} (hv : '\n' ∉ v) (text : Text) :
    runScript .extended (fieldScript slash op d cl (escapeFor slash v)) text
      = .ok (mapLines (replaceField op d cl v) text) := by
  have hline : (Substitution.mk (fieldItems op d cl) (fieldParts v) false).onLine
      = replaceField op d cl v := by
    funext line
    exact substituteFirst_field op d cl v line
  rw [runScript, readSubstitution_field h hv, Except.map, hline]

end FieldScript

end JosfraPge.Foundation.SedScript
