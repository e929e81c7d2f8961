import Mathlib.Data.List.DropRight
import Mathlib.Tactic

/-!
# Texts, lines and literal occurrences

A text is a list of characters.  Line tools read a text as the lines ended by a newline
and one unterminated remainder; `joinLines` undoes `splitLines` and `mapLines` is the frame of a
filter that works on one line at a time.  `Occurs` is literal occurrence.

Nothing here knows about any particular tool or file format.
-/

namespace JosfraPge.Foundation.LineText

/-- A text, as the characters it is made of. -/
abbrev Text := List Char

/-- A statement about the characters of a text is decided by walking the text, not the alphabet. -/
instance (priority := 1100) decidableForallMem (p : Char → Prop) [DecidablePred p] (t : Text) :
    Decidable (∀ c ∈ t, p c) :=
  List.decidableBAll p t

/-! ## Lines -/

/-- The newline-terminated lines of a text (without their newlines) and the remainder. -/
def splitLines : Text → List Text × Text
  | [] => ([], [])
  | c :: cs =>
      if c = '\n' then ([] :: (splitLines cs).1, (splitLines cs).2)
      else match (splitLines cs).1 with
        | [] => ([], c :: (splitLines cs).2)
        | l :: ls => ((c :: l) :: ls, (splitLines cs).2)

/-- Lines, each ended by a newline, and a remainder. -/
def joinLines (ls : List Text) (r : Text) : Text := ls.flatMap (· ++ ['\n']) ++ r

@[simp] theorem joinLines_nil (r : Text) : joinLines [] r = r := rfl

@[simp] theorem joinLines_cons (l : Text) (ls : List Text) (r : Text) :
    joinLines (l :: ls) r = l ++ '\n' :: joinLines ls r := by
  simp [joinLines]

@[simp] theorem splitLines_newline (cs : Text) :
    splitLines ('\n' :: cs) = ([] :: (splitLines cs).1, (splitLines cs).2) := by
  simp [splitLines]

theorem joinLines_splitLines (s : Text) :
    joinLines (splitLines s).1 (splitLines s).2 = s := by
  induction s with
  | nil => rfl
  | cons c cs ih =>
      by_cases hc : c = '\n'
      · subst hc
        simp [ih]
      · cases hs : (splitLines cs).1 with
        | nil =>
            rw [hs] at ih
            simpa [splitLines, hc, hs] using ih
        | cons l ls =>
            rw [hs] at ih
            simpa [splitLines, hc, hs] using ih

/-- No part of a split text holds a newline. -/
theorem newline_not_mem_splitLines (s : Text) :
    (∀ l ∈ (splitLines s).1, '\n' ∉ l) ∧ '\n' ∉ (splitLines s).2 := by
  induction s with
  | nil => simp [splitLines]
  | cons c cs ih =>
      by_cases hc : c = '\n'
      · subst hc
        simpa using ih
      · have hc' : '\n' ≠ c := fun h => hc h.symm
        cases hs : (splitLines cs).1 with
        | nil =>
            rw [hs] at ih
            simpa [splitLines, hc, hc', hs] using ih.2
        | cons l ls =>
            rw [hs] at ih
            simp only [List.mem_cons, forall_eq_or_imp] at ih
            simpa [splitLines, hc, hc', hs] using ih

/-- A text without newline is one unterminated line. -/
theorem splitLines_of_newline_not_mem {s : Text} (h : '\n' ∉ s) : splitLines s = ([], s) := by
  induction s with
  | nil => rfl
  | cons c cs ih =>
      have hc : c ≠ '\n' := fun e => h (e ▸ List.mem_cons_self)
      simp [splitLines, hc, ih (fun m => h (List.mem_cons_of_mem _ m))]

/-- Apply `f` to every line of a text.  An empty remainder is no line. -/
def mapLines (f : Text → Text) (s : Text) : Text :=
  joinLines ((splitLines s).1.map f) (if (splitLines s).2 = [] then [] else f (splitLines s).2)

/-- A single unterminated line. -/
theorem mapLines_of_newline_not_mem {f : Text → Text} {s : Text} (h : '\n' ∉ s) (hf : f [] = []) :
    mapLines f s = f s := by
  simp only [mapLines, splitLines_of_newline_not_mem h, List.map_nil, joinLines_nil]
  split
  · rename_i hs
    rw [hs, hf]
  · rfl

/-- A text up to its first newline. -/
def firstLine (s : Text) : Text := s.takeWhile (· != '\n')

theorem newline_not_mem_firstLine (s : Text) : '\n' ∉ firstLine s := by
  intro h
  simpa using List.mem_takeWhile_imp h

theorem firstLine_of_newline_not_mem {s : Text} (h : '\n' ∉ s) : firstLine s = s := by
  rw [firstLine, List.takeWhile_eq_self_iff]
  intro c hc
  exact bne_iff_ne.mpr fun heq => h (heq ▸ hc)

/-- A text is its first line, or that line, a newline and the rest. -/
theorem firstLine_cases (s : Text) :
    (s.dropWhile (· != '\n') = [] ∧ firstLine s = s) ∨
      ∃ rest, s.dropWhile (· != '\n') = '\n' :: rest ∧ s = firstLine s ++ '\n' :: rest := by
  have hsplit : firstLine s ++ s.dropWhile (· != '\n') = s := List.takeWhile_append_dropWhile
  cases hrest : s.dropWhile (· != '\n') with
  | nil =>
      rw [hrest, List.append_nil] at hsplit
      exact Or.inl ⟨rfl, hsplit⟩
  | cons c rest =>
      have hhead := List.head_dropWhile_not (· != '\n') (by rw [hrest]; simp)
      have hc : c = '\n' := by
        simpa [hrest] using hhead
      rw [hrest, hc] at hsplit
      exact Or.inr ⟨rest, by rw [hc], hsplit.symm⟩

theorem splitLines_line {l : Text} (hl : '\n' ∉ l) (s : Text) :
    splitLines (l ++ '\n' :: s) = (l :: (splitLines s).1, (splitLines s).2) := by
  induction l with
  | nil => exact splitLines_newline s
  | cons c l ih =>
      have hc : c ≠ '\n' := fun e => hl (e ▸ List.mem_cons_self)
      have hrest := ih fun m => hl (List.mem_cons_of_mem _ m)
      simp [splitLines, hc, hrest]

theorem mapLines_line {f : Text → Text} {l : Text} (hl : '\n' ∉ l) (s : Text) :
    mapLines f (l ++ '\n' :: s) = f l ++ '\n' :: mapLines f s := by
  simp [mapLines, splitLines_line hl]

/-- What `mapLines` makes of the text behind the first line. -/
def restLines (f : Text → Text) (s : Text) : Text :=
  match s.dropWhile (· != '\n') with
  | [] => []
  | _ :: rest => '\n' :: mapLines f rest

theorem firstLine_append {w : Text} (hw : '\n' ∉ w) (s : Text) :
    firstLine (w ++ s) = w ++ firstLine s := by
  apply List.takeWhile_append_of_pos
  intro c hc
  exact bne_iff_ne.mpr fun h => hw (h ▸ hc)

theorem restLines_append (f : Text → Text) {w : Text} (hw : '\n' ∉ w) (s : Text) :
    restLines f (w ++ s) = restLines f s := by
  have hdrop : (w ++ s).dropWhile (· != '\n') = s.dropWhile (· != '\n') := by
    apply List.dropWhile_append_of_pos
    intro c hc
    exact bne_iff_ne.mpr fun h => hw (h ▸ hc)
  rw [restLines, hdrop, restLines]

/-- A filter works on the first line and on the rest. -/
theorem mapLines_firstLine {f : Text → Text} (hf : f [] = []) (s : Text) :
    mapLines f s = f (firstLine s) ++ restLines f s := by
  have hline := newline_not_mem_firstLine s
  rcases firstLine_cases s with ⟨hrest, hs⟩ | ⟨rest, hrest, hs⟩
  · rw [hs] at hline
    rw [restLines, hrest, List.append_nil, hs, mapLines_of_newline_not_mem hline hf]
  · conv_lhs => rw [hs]
    rw [mapLines_line hline, restLines, hrest]

/-- The lines of a text, the remainder included when there is one. -/
def lines (s : Text) : List Text :=
  (splitLines s).1 ++ (if (splitLines s).2 = [] then [] else [(splitLines s).2])

/-- A filter that changes no line changes nothing. -/
theorem mapLines_id_of_lines {f : Text → Text} {s : Text} (h : ∀ l ∈ lines s, f l = l) :
    mapLines f s = s := by
  have hmap : (splitLines s).1.map f = (splitLines s).1 := by
    conv_rhs => rw [← List.map_id (splitLines s).1]
    exact List.map_congr_left fun l hl => h l (by simp [lines, hl])
  have hrem : (if (splitLines s).2 = [] then [] else f (splitLines s).2) = (splitLines s).2 := by
    split
    · rename_i hr
      exact hr.symm
    · rename_i hr
      exact h _ (by simp [lines, hr])
  rw [mapLines, hmap, hrem, joinLines_splitLines]

theorem lines_line {l : Text} (hl : '\n' ∉ l) (s : Text) :
    lines (l ++ '\n' :: s) = l :: lines s := by
  rw [lines, splitLines_line hl]
  rfl

theorem joinLines_append (ls : List Text) (r s : Text) :
    joinLines ls r ++ s = joinLines ls (r ++ s) := List.append_assoc _ _ _

theorem lines_joinLines {ls : List Text} (h : ∀ l ∈ ls, '\n' ∉ l) (s : Text) :
    lines (joinLines ls s) = ls ++ lines s := by
  induction ls with
  | nil => rfl
  | cons l ls ih =>
      rw [joinLines_cons, lines_line (h l List.mem_cons_self),
        ih fun x hx => h x (List.mem_cons_of_mem _ hx)]
      rfl

/-- A newline between two texts ends a line. -/
theorem lines_append_newline (x s : Text) :
    lines (x ++ '\n' :: s) = (splitLines x).1 ++ (splitLines x).2 :: lines s := by
  have hparts := newline_not_mem_splitLines x
  have hx : x ++ '\n' :: s = joinLines (splitLines x).1 ((splitLines x).2 ++ '\n' :: s) := by
    rw [← joinLines_append, joinLines_splitLines]
  rw [hx, lines_joinLines hparts.1, lines_line hparts.2]

/-- A text is its first line, or that line, a newline and the text of the other lines. -/
theorem lines_eq_cons {s l : Text} {ls : List Text} (h : lines s = l :: ls) :
    (s = l ∧ ls = []) ∨ ∃ s', s = l ++ '\n' :: s' ∧ lines s' = ls := by
  have hline := newline_not_mem_firstLine s
  rcases firstLine_cases s with ⟨-, hs⟩ | ⟨rest, -, hs⟩
  · rw [hs] at hline
    have hone : s ≠ [] := by
      rintro rfl
      exact absurd h (by simp [lines, splitLines])
    rw [lines, splitLines_of_newline_not_mem hline, if_neg hone] at h
    obtain ⟨rfl, rfl⟩ := List.cons.inj h
    exact Or.inl ⟨rfl, rfl⟩
  · rw [hs, lines_line hline] at h
    obtain ⟨rfl, rfl⟩ := List.cons.inj h
    exact Or.inr ⟨rest, hs, rfl⟩

/-- Lines in front of a text can be taken off. -/
theorem exists_joinLines {s : Text} {before rest : List Text} (h : lines s = before ++ rest)
    (hrest : rest ≠ []) : ∃ e, s = joinLines before e ∧ lines e = rest := by
  induction before generalizing s with
  | nil => exact ⟨s, rfl, h⟩
  | cons l before ih =>
      rcases lines_eq_cons h with ⟨-, hnil⟩ | ⟨s', hs, hs'⟩
      · exact absurd (List.append_eq_nil_iff.1 hnil).2 hrest
      · obtain ⟨e, he, hlines⟩ := ih hs'
        exact ⟨e, by rw [hs, he, joinLines_cons], hlines⟩

/-- Command substitution drops every newline at the end of the captured output. -/
def dropTrailingNewlines (s : Text) : Text := s.rdropWhile (· == '\n')

theorem dropTrailingNewlines_of_not_mem {s : Text} (h : '\n' ∉ s) : dropTrailingNewlines s = s := by
  rw [dropTrailingNewlines, List.rdropWhile_eq_self_iff]
  intro hs hlast
  have hmem := List.getLast_mem hs
  rw [beq_iff_eq.mp hlast] at hmem
  exact h hmem

theorem dropTrailingNewlines_newline (s : Text) :
    dropTrailingNewlines (s ++ ['\n']) = dropTrailingNewlines s :=
  List.rdropWhile_concat_pos _ s '\n' rfl

/-! ## Texts around a character -/

/-- Two texts with the same first `d` agree on both sides of it. -/
theorem append_cons_inj {x y u v : Text} {d : Char} (hx : d ∉ x) (hy : d ∉ y)
    (h : x ++ d :: u = y ++ d :: v) : x = y ∧ u = v := by
  have hsplit := congrArg (List.splitOn d) h
  rw [List.splitOn_append_cons_self_of_not_mem hx, List.splitOn_append_cons_self_of_not_mem hy]
    at hsplit
  obtain rfl := (List.cons.inj hsplit).1
  exact ⟨rfl, (List.cons.inj (List.append_cancel_left h)).2⟩

section AroundLast

variable {d : Char} {s : Text}

/-- What stands in front of a `d` does not matter to the text after the last one. -/
theorem rtakeWhile_append_cons (r s : Text) :
    (r ++ d :: s).rtakeWhile (· ≠ d) = s.rtakeWhile (· ≠ d) := by
  rw [List.rtakeWhile, List.reverse_append, List.reverse_cons, List.append_assoc, List.takeWhile_append,
    List.rtakeWhile, List.singleton_append, List.takeWhile_cons_of_neg (by simp), List.append_nil]
  split
  · rename_i hlen
    rw [(List.takeWhile_prefix _).eq_of_length hlen]
  · rfl

/-- The text after the last `d`. -/
theorem rtakeWhile_ne (hd : d ∉ s) (r : Text) : (r ++ d :: s).rtakeWhile (· ≠ d) = s := by
  rw [rtakeWhile_append_cons, List.rtakeWhile_eq_self_iff]
  exact fun c hc => decide_eq_true fun h => hd (h ▸ hc)

end AroundLast

/-! ## Literal occurrence -/

/-- `w` occurs in `s`. -/
def Occurs (w s : Text) : Prop := w <:+: s

instance (w s : Text) : Decidable (Occurs w s) := inferInstanceAs (Decidable (w <:+: s))

theorem lines_newline (s : Text) : lines ('\n' :: s) = [] :: lines s := by
  simp [lines]

/-- A character in front of a text joins its first line. -/
theorem lines_cons {c : Char} (hc : c ≠ '\n') {s : Text} (hs : s ≠ []) :
    ∃ l ls, lines s = l :: ls ∧ lines (c :: s) = (c :: l) :: ls := by
  cases hsplit : (splitLines s).1 with
  | nil =>
      have hrest : (splitLines s).2 = s := by
        have hjoin := joinLines_splitLines s
        rwa [hsplit, joinLines_nil] at hjoin
      refine ⟨s, [], ?_, ?_⟩
      · simp [lines, hsplit, hrest, hs]
      · simp [lines, splitLines, hc, hsplit, hrest]
  | cons l ls =>
      refine ⟨l, ls ++ (if (splitLines s).2 = [] then [] else [(splitLines s).2]), ?_, ?_⟩
      · simp [lines, hsplit]
      · simp [lines, splitLines, hc, hsplit]

theorem lines_head {w : Text} (hw : '\n' ∉ w) (hne : w ≠ []) (b : Text) :
    ∃ r ls, lines (w ++ b) = (w ++ r) :: ls := by
  induction w with
  | nil => exact absurd rfl hne
  | cons c w ih =>
      have hc : c ≠ '\n' := fun h => hw (h ▸ List.mem_cons_self)
      have hw' : '\n' ∉ w := fun h => hw (List.mem_cons_of_mem _ h)
      by_cases hnil : w = []
      · subst hnil
        by_cases hb : b = []
        · subst hb
          exact ⟨[], [], by simp [lines, splitLines, hc]⟩
        · obtain ⟨l, ls, _, hl⟩ := lines_cons hc hb
          exact ⟨l, ls, hl⟩
      · obtain ⟨r, ls, hr⟩ := ih hw' hnil
        obtain ⟨l, ls', hl, hcons⟩ := lines_cons hc (s := w ++ b) (by simp [hnil])
        rw [hr] at hl
        injection hl with hl hls
        exact ⟨r, ls', by rw [List.cons_append, hcons, ← hl]; rfl⟩

/-- A literal of one line that occurs in a text occurs in one of its lines. -/
theorem Occurs.in_line {w s : Text} (h : Occurs w s) (hw : '\n' ∉ w) (hne : w ≠ []) :
    ∃ l ∈ lines s, Occurs w l := by
  obtain ⟨a, b, rfl⟩ := h
  rw [List.append_assoc]
  induction a with
  | nil =>
      obtain ⟨r, ls, hr⟩ := lines_head hw hne b
      rw [List.nil_append, hr]
      exact ⟨w ++ r, List.mem_cons_self, (List.prefix_append w r).isInfix⟩
  | cons c a ih =>
      obtain ⟨l, hl, hocc⟩ := ih
      rw [List.cons_append]
      by_cases hc : c = '\n'
      · subst hc
        rw [lines_newline]
        exact ⟨l, List.mem_cons_of_mem _ hl, hocc⟩
      · obtain ⟨l', ls, hlines, hcons⟩ := lines_cons hc (s := a ++ (w ++ b)) (by simp [hne])
        rw [hlines] at hl
        rw [hcons]
        rcases List.mem_cons.mp hl with rfl | hl
        · exact ⟨c :: l, List.mem_cons_self, hocc.trans (List.suffix_cons c l).isInfix⟩
        · exact ⟨l, List.mem_cons_of_mem _ hl, hocc⟩

end JosfraPge.Foundation.LineText
