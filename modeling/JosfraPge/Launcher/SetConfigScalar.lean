import JosfraPge.Foundation.SedScript

/-!
# `set_config_scalar`: the launcher's edit of one scalar

`josfra_spdc.sh` edits its local copy of the config with two `sed` programs.  The first quotes the
value, the second is built around the quoted value and rewrites the text between
`<scalar name="N">` and `</scalar>`.  The embedding keeps both levels: the programs are the texts the
shell passes, read and run by the substitute command of `SedScript`.

`setConfigScalar_eq` says that, for a name of ordinary characters and a value of one line, the two
levels cancel and the whole call is `replaceField` on every line.
-/

namespace JosfraPge.Launcher.SetConfigScalar

open JosfraPge.Foundation.LineText
open JosfraPge.Foundation.LinePattern
open JosfraPge.Foundation.DelimitedField
open JosfraPge.Foundation.SedScript

/-! ## The shell function -/

/-- `<scalar name="` -/
def openingHead : Text := "<scalar name=\"".toList

/-- `">` -/
def openingTail : Text := "\">".toList

/-- `<scalar name="N">` -/
def openingTag (name : Text) : Text := openingHead ++ (name ++ openingTail)

/-- What follows the `<` of the closing tag. -/
def closingRest : Text := "/scalar>".toList

/-- `</scalar>` -/
def closingTag : Text := '<' :: closingRest

/-- `s/[\\&|]/\\&/g`, single-quoted in the script. -/
def escapeProgram : Text := "s/[\\\\&|]/\\\\&/g".toList

/-- `s|(<scalar name="N">)[^<]*(</scalar>)|\1ESCAPED\2|`, double-quoted in the script. -/
def editProgram (name escaped : Text) : Text :=
  "s|(".toList ++ (openingTag name ++ (")[^<]*(".toList ++ (closingTag ++
    (")|\\1".toList ++ (escaped ++ "\\2|".toList)))))

/-- `escaped=$(printf '%s' "$value" | sed -e 's/[\\&|]/\\&/g')` -/
def escapeValue (value : Text) : Except SedError Text :=
  (runScript .basic escapeProgram value).map dropTrailingNewlines

/-- `set_config_scalar name value`, on the contents of the local config. -/
def setConfigScalar (name value localConfig : Text) : Except SedError Text := do
  let present ← grepQuiet (openingTag name) localConfig
  if present = false then
    -- "scalar N not present in config, skipping"
    return localConfig
  let escaped ← escapeValue value
  runScript .extended (editProgram name escaped) localConfig

/-! ## Names -/

/-- A letter, a digit or an underscore; every character beyond ASCII is let through. -/
def isPlainChar (c : Char) : Bool := c.isAlphanum || c == '_' || 128 ≤ c.toNat

/-- A name of ordinary characters. -/
def PlainName (name : Text) : Prop := ∀ c ∈ name, isPlainChar c = true

instance (name : Text) : Decidable (PlainName name) :=
  inferInstanceAs (Decidable (∀ c ∈ name, isPlainChar c = true))

theorem isPlainChar_ordinary {c : Char} (hc : isPlainChar c = true) :
    isSpecial .basic c = false ∧ isSpecial .extended c = false ∧ c ≠ '|' ∧ c ≠ '\n' := by
  have hset : ∀ d ∈ "\\.[*^$()+?\x7b|\n".toList, c ≠ d := by
    intro d hd hcd
    subst hcd
    have hnone : ∀ e ∈ "\\.[*^$()+?\x7b|\n".toList, isPlainChar e = false := by decide
    rw [hnone c hd] at hc
    exact Bool.noConfusion hc
  have hnot : ∀ w : Text, w ⊆ "\\.[*^$()+?\x7b|\n".toList → w.contains c = false := by
    intro w hw
    rw [Bool.eq_false_iff, ne_eq, List.contains_iff_mem]
    exact fun hmem => hset c (hw hmem) rfl
  exact ⟨hnot _ (by decide), hnot _ (by decide), hset _ (by decide), hset _ (by decide)⟩

theorem openingTag_ordinary {name : Text} (hname : PlainName name) :
    ∀ c ∈ openingTag name,
      isSpecial .basic c = false ∧ isSpecial .extended c = false ∧ c ≠ '|' ∧ c ≠ '\n' := by
  have hhead : ∀ c ∈ openingHead,
      isSpecial .basic c = false ∧ isSpecial .extended c = false ∧ c ≠ '|' ∧ c ≠ '\n' := by
    decide
  have htail : ∀ c ∈ openingTail,
      isSpecial .basic c = false ∧ isSpecial .extended c = false ∧ c ≠ '|' ∧ c ≠ '\n' := by
    decide
  intro c hc
  rw [openingTag, List.mem_append, List.mem_append] at hc
  rcases hc with hc | hc | hc
  · exact hhead c hc
  · exact isPlainChar_ordinary (hname c hc)
  · exact htail c hc

/-- The tag literals of a plain name are cut out of the edit program at the intended places. -/
theorem fieldSyntax {name : Text} (hname : PlainName name) :
    FieldSyntax '|' (openingTag name) '<' closingRest where
  slash_plain := by decide
  not_dash := by decide
  opening := fun c hc => (openingTag_ordinary hname c hc).2
  closing := by decide

/-! ## The two programs -/

theorem readSubstitution_escapeProgram :
    readSubstitution .basic escapeProgram
      = .ok ⟨[.one (.bracket false ['\\', '\\', '&', '|'])], [.char '\\', .group 0], true⟩ := by
  decide

/-- The first program puts a backslash before backslash, ampersand and bar. -/
theorem escapeValue_eq (value : Text) :
    escapeValue value = .ok (dropTrailingNewlines (escapeFor '|' value)) := by
  have hline : (Substitution.mk [.one (.bracket false ['\\', '\\', '&', '|'])]
      [.char '\\', .group 0] true).onLine
      = (·.flatMap fun c => if c = '\\' ∨ c = '&' ∨ c = '|' then ['\\', c] else [c]) := by
    funext line
    rw [Substitution.onLine, if_pos rfl, substituteAll_one _ _ _ _ _ (Nat.lt_succ_self _)]
    congr 1
    funext c
    simp [Atom.accepts, expand]
  rw [escapeValue, runScript, readSubstitution_escapeProgram]
  simp only [Except.map, hline]
  rw [mapLines_flatMap (by decide)]
  rfl

theorem editProgram_eq (name escaped : Text) :
    editProgram name escaped = fieldScript '|' (openingTag name) '<' closingRest escaped := by
  have hopen : "s|(".toList = ['s', '|', '('] := rfl
  have hmiddle : ")[^<]*(".toList = [')', '[', '^', '<', ']', '*', '('] := rfl
  have hfirst : ")|\\1".toList = [')', '|', '\\', '1'] := rfl
  have hsecond : "\\2|".toList = ['\\', '2', '|'] := rfl
  simp only [editProgram, fieldScript, fieldPatternText, closingTag, hopen, hmiddle, hfirst, hsecond,
    List.cons_append, List.nil_append, List.append_assoc]

theorem newline_not_mem_escapeFor {value : Text} (hvalue : '\n' ∉ value) :
    '\n' ∉ escapeFor '|' value := by
  rw [escapeFor, List.mem_flatMap]
  rintro ⟨c, hc, hmem⟩
  have hcn : c ≠ '\n' := fun h => hvalue (h ▸ hc)
  split at hmem
  · simp [hcn.symm] at hmem
  · simp [hcn.symm] at hmem

/-- Quoting keeps the end of a value. -/
theorem dropTrailingNewlines_escapeFor {value : Text} (hlast : dropTrailingNewlines value = value) :
    dropTrailingNewlines (escapeFor '|' value) = escapeFor '|' value := by
  rcases List.eq_nil_or_concat value with hnil | ⟨init, c, hc⟩
  · rw [hnil]
    rfl
  · rw [List.concat_eq_append] at hc
    subst hc
    have hne : c ≠ '\n' := by
      have hself := List.rdropWhile_eq_self_iff.mp hlast (by simp)
      simpa using hself
    have hescape : escapeFor '|' (init ++ [c]) = escapeFor '|' init ++ escapeFor '|' [c] := by
      simp [escapeFor]
    have hend : ∃ w, escapeFor '|' [c] = w ++ [c] := by
      by_cases hspecial : c = '\\' ∨ c = '&' ∨ c = '|'
      · exact ⟨['\\'], by simp [escapeFor, hspecial]⟩
      · exact ⟨[], by simp [escapeFor, hspecial]⟩
    obtain ⟨w, hw⟩ := hend
    rw [hescape, hw, ← List.append_assoc]
    apply List.rdropWhile_concat_neg
    simpa using hne

/-! ## The whole call -/

/-- The edit of one scalar, as a function on lines. -/
abbrev editLine (name value : Text) : Text → Text :=
  replaceField (openingTag name) '<' closingRest value

/-- A config without the tag is left as it is. -/
theorem setConfigScalar_absent {name localConfig : Text} (hname : PlainName name)
    (habsent : ¬ ∃ l ∈ lines localConfig, Occurs (openingTag name) l) (value : Text) :
    setConfigScalar name value localConfig = .ok localConfig := by
  have hgrep := grepQuiet_plain (fun c hc => (openingTag_ordinary hname c hc).1) localConfig
  simp only [setConfigScalar, hgrep, habsent, bind, Except.bind, decide_false, if_true]
  rfl

/-- **The call is the line edit.**  Quoting and reading back cancel for every one-line value, and
skipping a config without the tag is the same as editing it. -/
theorem setConfigScalar_eq {name value : Text} (hname : PlainName name) (hvalue : '\n' ∉ value)
    (localConfig : Text) :
    setConfigScalar name value localConfig = .ok (mapLines (editLine name value) localConfig) := by
  have hgrep := grepQuiet_plain (fun c hc => (openingTag_ordinary hname c hc).1) localConfig
  have hescape : escapeValue value = .ok (escapeFor '|' value) := by
    rw [escapeValue_eq, dropTrailingNewlines_of_not_mem (newline_not_mem_escapeFor hvalue)]
  by_cases hpresent : ∃ l ∈ lines localConfig, Occurs (openingTag name) l
  · have hrun := runScript_field (fieldSyntax hname) hvalue localConfig
    rw [← editProgram_eq] at hrun
    simp only [setConfigScalar, hgrep, hpresent, hescape, bind, Except.bind, decide_true, hrun]
    rfl
  · have hskip : mapLines (editLine name value) localConfig = localConfig :=
      mapLines_id_of_lines fun l hl =>
        replaceField_of_not_occurs fun hocc => hpresent ⟨l, hl, hocc⟩
    rw [setConfigScalar_absent hname hpresent, hskip]

/-- A value of several lines stops the call on every config with the tag. -/
theorem setConfigScalar_newline {name value localConfig : Text} (hname : PlainName name)
    (hvalue : '\n' ∈ value) (hlast : dropTrailingNewlines value = value)
    (hpresent : ∃ l ∈ lines localConfig, Occurs (openingTag name) l) :
    setConfigScalar name value localConfig = .error .unterminated := by
  have hgrep := grepQuiet_plain (fun c hc => (openingTag_ordinary hname c hc).1) localConfig
  have hescape : escapeValue value = .ok (escapeFor '|' value) := by
    rw [escapeValue_eq, dropTrailingNewlines_escapeFor hlast]
  have hrun : runScript .extended (editProgram name (escapeFor '|' value)) localConfig
      = .error .unterminated := by
    rw [editProgram_eq, runScript, readSubstitution_field_newline (fieldSyntax hname) hvalue]
    rfl
  simp only [setConfigScalar, hgrep, hpresent, hescape, bind, Except.bind, decide_true]
  exact hrun

/-- What the call does to one line: the leftmost tag, text, closing tag has its text replaced; a
line without one stays. -/
def EditedLine (name value line line' : Text) : Prop :=
  (∃ a t b, line = a ++ (openingTag name ++ (t ++ (closingTag ++ b))) ∧ '<' ∉ t ∧
      (∀ a' t' b', line = a' ++ (openingTag name ++ (t' ++ (closingTag ++ b'))) → '<' ∉ t' →
        a.length ≤ a'.length) ∧
      line' = a ++ (openingTag name ++ (value ++ (closingTag ++ b)))) ∨
    ((∀ a t b, line = a ++ (openingTag name ++ (t ++ (closingTag ++ b))) → '<' ∈ t) ∧ line' = line)

theorem editLine_edited (name value line : Text) :
    EditedLine name value line (editLine name value line) := by
  rcases replaceField_spec (openingTag name) '<' closingRest value line with
    ⟨a, t, b, hfirst, hrep⟩ | ⟨habs, hrep⟩
  · exact Or.inl ⟨a, t, b, hfirst.shape, hfirst.value, hfirst.first, hrep⟩
  · exact Or.inr ⟨habs, hrep⟩

/-- The edit of a whole config: same lines, each edited as `EditedLine` says, same line ends. -/
def EditedConfig (name value localConfig edited : Text) : Prop :=
  ∃ ls r ls' r', localConfig = joinLines ls r ∧ (∀ l ∈ ls, '\n' ∉ l) ∧ '\n' ∉ r ∧
    List.Forall₂ (EditedLine name value) ls ls' ∧ EditedLine name value r r' ∧
    edited = joinLines ls' r'

theorem mapLines_editLine_edited (name value localConfig : Text) :
    EditedConfig name value localConfig (mapLines (editLine name value) localConfig) := by
  refine ⟨(splitLines localConfig).1, (splitLines localConfig).2, _, _,
    (joinLines_splitLines localConfig).symm, (newline_not_mem_splitLines localConfig).1,
    (newline_not_mem_splitLines localConfig).2, ?_, ?_, rfl⟩
  · rw [List.forall₂_map_right_iff, List.forall₂_same]
    exact fun l _ => editLine_edited name value l
  · split
    · rename_i hr
      rw [hr]
      exact editLine_edited name value []
    · exact editLine_edited name value _

/-- **The edit is exact at the text level.** -/
theorem setConfigScalar_exact {name value : Text} (hname : PlainName name) (hvalue : '\n' ∉ value)
    (localConfig : Text) :
    ∃ edited, setConfigScalar name value localConfig = .ok edited ∧
      EditedConfig name value localConfig edited ∧
      ((∀ l ∈ lines localConfig, ¬ Occurs (openingTag name) l) → edited = localConfig) := by
  refine ⟨_, setConfigScalar_eq hname hvalue localConfig,
    mapLines_editLine_edited name value localConfig, fun habs => ?_⟩
  exact mapLines_id_of_lines fun l hl => replaceField_of_not_occurs (habs l hl)

/-- A value made of everything `sed` gives a meaning to, on a two-line config. -/
theorem setConfigScalar_exact_hostile :
    ∃ edited,
      setConfigScalar "AVN_3".toList "1\\2&|g;\\\\</scalar>\\".toList
        "<scalar name=\"AVN_3\">old</scalar>\n<scalar name=\"AVN_6\">x</scalar>".toList = .ok edited ∧
      EditedConfig "AVN_3".toList "1\\2&|g;\\\\</scalar>\\".toList
        "<scalar name=\"AVN_3\">old</scalar>\n<scalar name=\"AVN_6\">x</scalar>".toList edited ∧
      ((∀ l ∈ lines "<scalar name=\"AVN_3\">old</scalar>\n<scalar name=\"AVN_6\">x</scalar>".toList,
          ¬ Occurs (openingTag "AVN_3".toList) l) →
        edited = "<scalar name=\"AVN_3\">old</scalar>\n<scalar name=\"AVN_6\">x</scalar>".toList) :=
  setConfigScalar_exact (by decide) (by decide) _

end JosfraPge.Launcher.SetConfigScalar
