import JosfraPge.Foundation.LineText

/-!
# Line patterns: the fragment of POSIX regular expressions made of a sequence

A pattern is a sequence of characters and bracket expressions, each possibly starred, with
unnested groups in the extended flavour.  `readPattern` reads a pattern from its source text
(`none` outside the fragment: anchors, alternation, bounded repetition, the period, back
references, character classes and ranges).

`matchesAt` lists every way a pattern matches a prefix, greedy choices first, and `matchHere` takes the
longest, the earlier one among equals: the POSIX leftmost-longest rule at one position.

The two exact results are `matchesFrom_chars`, for a literal stretch, and
`matchesFrom_many_stop`, for a star followed by something the starred atom refuses.
-/

namespace JosfraPge.Foundation.LinePattern

open JosfraPge.Foundation.LineText

/-- Basic or extended syntax. -/
inductive Flavour where
  | basic
  | extended
  deriving DecidableEq, Repr

/-- What matches one character. -/
inductive Atom where
  | char (c : Char)
  | bracket (negated : Bool) (members : List Char)
  deriving DecidableEq, Repr

def Atom.accepts : Atom → Char → Bool
  | .char c, d => c == d
  | .bracket negated members, d => negated != members.contains d

@[simp] theorem Atom.accepts_char (c d : Char) : (Atom.char c).accepts d = true ↔ c = d := by
  simp [Atom.accepts]

/-- The items of a pattern.  `asterisk` stands for a star that has not met its atom yet; a
pattern in which one remains is refused. -/
inductive Item where
  | one (a : Atom)
  | many (a : Atom)
  | openGroup
  | closeGroup
  | asterisk
  deriving DecidableEq, Repr

/-! ## Reading a pattern -/

/-- Where the reader stands: between items or inside a bracket expression. -/
inductive ReadMode where
  | items
  | bracketStart
  | bracketFirst (negated : Bool)
  | bracket (negated : Bool) (members : List Char)

/-- Characters that are no ordinary character between items. -/
def isSpecial : Flavour → Char → Bool
  | .basic, c => "\\.[*^$".toList.contains c
  | .extended, c => "\\.[*^$()+?\x7b|".toList.contains c

/-- Put an atom before the items read after it; a star that follows applies to it. -/
def attach (a : Atom) : List Item → List Item
  | .asterisk :: is => .many a :: is
  | is => .one a :: is

/-- The reader, `inGroup` telling whether a group is open. -/
def readItems (fl : Flavour) : ReadMode → Bool → Text → Option (List Item)
  | .items, inGroup, [] => if inGroup then none else some []
  | .items, inGroup, c :: cs =>
      if c = '[' then readItems fl .bracketStart inGroup cs
      else if c = '*' then (readItems fl .items inGroup cs).map (.asterisk :: ·)
      else if fl = .extended ∧ c = '(' ∧ inGroup = false then
        (readItems fl .items true cs).map (.openGroup :: ·)
      else if fl = .extended ∧ c = ')' ∧ inGroup = true then
        (readItems fl .items false cs).map (.closeGroup :: ·)
      else if isSpecial fl c then none
      else (readItems fl .items inGroup cs).map (attach (.char c))
  | .bracketStart, inGroup, c :: cs =>
      if c = '^' then readItems fl (.bracketFirst true) inGroup cs
      else if c = '[' ∨ c = '-' then none
      else readItems fl (.bracket false [c]) inGroup cs
  | .bracketFirst negated, inGroup, c :: cs =>
      if c = '[' ∨ c = '-' then none
      else readItems fl (.bracket negated [c]) inGroup cs
  | .bracket negated members, inGroup, c :: cs =>
      if c = ']' then (readItems fl .items inGroup cs).map (attach (.bracket negated members))
      else if c = '[' ∨ c = '-' then none
      else readItems fl (.bracket negated (members ++ [c])) inGroup cs
  | _, _, [] => none

/-- The pattern a source text denotes. -/
def readPattern (fl : Flavour) (s : Text) : Option (List Item) :=
  (readItems fl .items false s).bind fun is => if .asterisk ∈ is then none else some is

/-- A literal stretch. -/
def chars (w : Text) : List Item := w.map fun c => .one (.char c)

@[simp] theorem chars_nil : chars [] = [] := rfl

@[simp] theorem chars_cons (c : Char) (w : Text) : chars (c :: w) = .one (.char c) :: chars w := rfl

theorem asterisk_not_mem_chars (w : Text) : Item.asterisk ∉ chars w := by
  simp [chars]

/-- A literal stretch reads as itself, as long as what follows is no star. -/
theorem readItems_chars {fl : Flavour} {w : Text} (hw : ∀ c ∈ w, isSpecial fl c = false)
    (inGroup : Bool) (rest : Text) {is : List Item}
    (hrest : readItems fl .items inGroup rest = some is) (his : is.head? ≠ some .asterisk) :
    readItems fl .items inGroup (w ++ rest) = some (chars w ++ is) := by
  induction w with
  | nil => exact hrest
  | cons c cs ih =>
      have hc : isSpecial fl c = false := hw c List.mem_cons_self
      have hih := ih fun d hd => hw d (List.mem_cons_of_mem _ hd)
      have hb : c ≠ '[' := by rintro rfl; cases fl <;> exact absurd hc (by decide)
      have hs : c ≠ '*' := by rintro rfl; cases fl <;> exact absurd hc (by decide)
      have hl : ¬(fl = .extended ∧ c = '(' ∧ inGroup = false) := by
        rintro ⟨rfl, rfl, -⟩
        exact absurd hc (by decide)
      have hr : ¬(fl = .extended ∧ c = ')' ∧ inGroup = true) := by
        rintro ⟨rfl, rfl, -⟩
        exact absurd hc (by decide)
      have hattach : attach (.char c) (chars cs ++ is) = chars (c :: cs) ++ is := by
        cases cs with
        | nil =>
            cases is with
            | nil => rfl
            | cons i is => cases i <;> first | rfl | simp at his
        | cons d ds => rfl
      simp only [List.cons_append, readItems, if_neg hb, if_neg hs, if_neg hl, if_neg hr, hc, hih,
        Option.map_some, hattach, Bool.false_eq_true, if_false]

/-! ## Matching -/

/-- One way to match: the text matched, the text of each group, and what follows. -/
structure Match where
  whole : Text
  groups : List Text
  rest : Text
  deriving DecidableEq, Repr

/-- Every way to split off a run of accepted characters, longest first. -/
def runs (a : Atom) : Text → List (Text × Text)
  | [] => [([], [])]
  | c :: s =>
      (if a.accepts c then (runs a s).map fun p => (c :: p.1, p.2) else []) ++ [([], c :: s)]

/-- Every match of the items at the start of a text.  `current` is the text of the open group,
`groups` the closed ones, `whole` everything matched so far. -/
def matchesFrom : List Item → Option Text → List Text → Text → Text → List Match
  | [], _, groups, whole, s => [⟨whole, groups, s⟩]
  | .one _ :: _, _, _, _, [] => []
  | .one a :: is, current, groups, whole, c :: s =>
      if a.accepts c then matchesFrom is (current.map (· ++ [c])) groups (whole ++ [c]) s else []
  | .many a :: is, current, groups, whole, s =>
      (runs a s).flatMap fun p =>
        matchesFrom is (current.map (· ++ p.1)) groups (whole ++ p.1) p.2
  | .openGroup :: is, _, groups, whole, s => matchesFrom is (some []) groups whole s
  | .closeGroup :: is, current, groups, whole, s =>
      matchesFrom is none (groups ++ [current.getD []]) whole s
  | .asterisk :: _, _, _, _, _ => []

/-- Every match at the start of a text. -/
def matchesAt (is : List Item) (s : Text) : List Match := matchesFrom is none [] [] s

/-- The longest match, the earlier one among equals. -/
def longest : List Match → Option Match
  | [] => none
  | m :: ms =>
      match longest ms with
      | none => some m
      | some m' => if m.whole.length < m'.whole.length then some m' else some m

/-- The POSIX match at the start of a text. -/
def matchHere (is : List Item) (s : Text) : Option Match := longest (matchesAt is s)

/-- Is there a match anywhere in the line? -/
def searches (is : List Item) : Text → Bool
  | [] => (matchHere is []).isSome
  | c :: s => (matchHere is (c :: s)).isSome || searches is s

/-- A literal stretch in front of the text it spells. -/
theorem matchesFrom_chars (w : Text) (is : List Item) (current : Option Text) (groups : List Text)
    (whole s : Text) :
    matchesFrom (chars w ++ is) current groups whole (w ++ s)
      = matchesFrom is (current.map (· ++ w)) groups (whole ++ w) s := by
  induction w generalizing current whole with
  | nil => cases current <;> simp
  | cons c cs ih =>
      simp only [chars_cons, List.cons_append, matchesFrom]
      rw [if_pos ((Atom.accepts_char c c).mpr rfl), ih]
      cases current <;> simp

/-- A literal stretch in front of a text it is no prefix of. -/
theorem matchesFrom_chars_ne {w s : Text} (h : ¬ w <+: s) (is : List Item) (current : Option Text)
    (groups : List Text) (whole : Text) :
    matchesFrom (chars w ++ is) current groups whole s = [] := by
  induction w generalizing s current whole with
  | nil => exact absurd List.nil_prefix h
  | cons c cs ih =>
      cases s with
      | nil => rfl
      | cons d ds =>
          simp only [chars_cons, List.cons_append, matchesFrom]
          by_cases hcd : c = d
          · subst hcd
            rw [if_pos ((Atom.accepts_char c c).mpr rfl)]
            exact ih (fun hp => h (by simpa using hp)) _ _
          · rw [if_neg fun hacc => hcd ((Atom.accepts_char c d).mp hacc)]

/-- When nothing can continue before an accepted character, only the maximal run counts. -/
theorem runs_flatMap_maximal {β : Type} (a : Atom) (s : Text) (f : Text × Text → List β)
    (hf : ∀ u c r, a.accepts c = true → f (u, c :: r) = []) :
    (runs a s).flatMap f = f (s.takeWhile a.accepts, s.dropWhile a.accepts) := by
  induction s generalizing f with
  | nil => simp [runs]
  | cons c cs ih =>
      by_cases hc : a.accepts c = true
      · have hih := ih (fun p => f (c :: p.1, p.2)) fun u d r hd => hf (c :: u) d r hd
        simp only [runs, hc, if_true, List.flatMap_append, List.flatMap_map, hih,
          List.flatMap_cons, List.flatMap_nil, hf [] c cs hc, List.append_nil,
          List.takeWhile_cons_of_pos, List.dropWhile_cons_of_pos]
      · simp [runs, hc]

/-- A star followed by items that cannot begin with a character the star accepts. -/
theorem matchesFrom_many_stop {a : Atom} {is : List Item}
    (hstop : ∀ current groups whole c r, a.accepts c = true →
      matchesFrom is current groups whole (c :: r) = [])
    (current : Option Text) (groups : List Text) (whole s : Text) :
    matchesFrom (.many a :: is) current groups whole s
      = matchesFrom is (current.map (· ++ s.takeWhile a.accepts)) groups
          (whole ++ s.takeWhile a.accepts) (s.dropWhile a.accepts) := by
  simp only [matchesFrom]
  exact runs_flatMap_maximal a s _ fun u c r hc => hstop _ _ _ c r hc

theorem longest_singleton (m : Match) : longest [m] = some m := rfl

/-- Searching for a literal is looking for an occurrence. -/
theorem searches_chars (w s : Text) : searches (chars w) s = true ↔ Occurs w s := by
  have hhere : ∀ u : Text, (matchHere (chars w) u).isSome = true ↔ w <+: u := by
    intro u
    by_cases hp : w <+: u
    · obtain ⟨r, rfl⟩ := hp
      have hm := matchesFrom_chars w [] none [] [] r
      rw [List.append_nil] at hm
      simp [matchHere, matchesAt, hm, matchesFrom, longest_singleton]
    · have hm := matchesFrom_chars_ne hp [] none [] []
      rw [List.append_nil] at hm
      simp [matchHere, matchesAt, hm, longest, hp]
  induction s with
  | nil => simp only [searches, hhere, Occurs, List.prefix_nil, List.infix_nil]
  | cons c cs ih =>
      simp only [searches, Bool.or_eq_true, hhere, ih, Occurs, List.infix_cons_iff]

end JosfraPge.Foundation.LinePattern
