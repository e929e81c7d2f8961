import JosfraPge.Launcher.LaunchRun

/-!
# The argument loop of the launcher

`josfra_spdc.sh` reads its inputs from named arguments: a word that is one of the eight option names
takes the next word as its value, any other word is passed over.  A value loses one pair of quotes,
since the runner passes an option that is not set as a literal `""` or `''`.

* `captured_wrap`: a value is recovered from each way it can be passed;
* `parseArguments_items`: the loop keeps in step with any arrangement of pairs and other words;
* `parseArguments_recovers`: what the variables hold when the loop ends.
-/

namespace JosfraPge.Launcher.ArgumentLoop

open JosfraPge.Foundation.LineText
open JosfraPge.Foundation.DirectoryTree
open JosfraPge.Launcher.LaunchRun

/-! ## Shell variables -/

/-- The shell's variables by name, `none` where one is not set. -/
abbrev Variables := Text → Option Text

namespace Variables

/-- `name=value` -/
def assign (vars : Variables) (name value : Text) : Variables := Function.update vars name (some value)

/-- `unset name` -/
def unset (vars : Variables) (name : Text) : Variables := Function.update vars name none

/-- `"$name"` -/
def expand (vars : Variables) (name : Text) : Text := (vars name).getD []

end Variables

/-! ## Quotes -/

/-- `${value#q}` -/
def stripLeading (q : Char) : Text → Text
  | c :: cs => if c = q then cs else c :: cs
  | [] => []

/-- `${value%q}` -/
def stripTrailing (q : Char) (value : Text) : Text :=
  if value.getLast? = some q then value.dropLast else value

/-- What `unquote` prints. -/
def unquote (value : Text) : Text :=
  stripTrailing '\'' (stripLeading '\'' (stripTrailing '"' (stripLeading '"' value)))

/-- `$(unquote "$2")` -/
def captured (value : Text) : Text := dropTrailingNewlines (unquote value)

/-! ## The loop -/

/-- The arguments the runner names. -/
inductive Parameter where
  | configFile | logFilename | l1cFile | moccaFile
  | forecastFile1 | forecastFile2 | forecastFile3 | forecastFile4
deriving DecidableEq

namespace Parameter

def option : Parameter → Text
  | configFile => "--config_file".toList
  | logFilename => "--log_filename".toList
  | l1cFile => "--l1c_file".toList
  | moccaFile => "--mocca_file".toList
  | forecastFile1 => "--forecast_file_1".toList
  | forecastFile2 => "--forecast_file_2".toList
  | forecastFile3 => "--forecast_file_3".toList
  | forecastFile4 => "--forecast_file_4".toList

/-- The shell variable an option sets. -/
def shellVariable : Parameter → Text
  | configFile => "CONFIG_FILE".toList
  | logFilename => "LOG_FILENAME".toList
  | l1cFile => "L1C_FILE".toList
  | moccaFile => "MOCCA_FILE".toList
  | forecastFile1 => "FORECAST_FILE_1".toList
  | forecastFile2 => "FORECAST_FILE_2".toList
  | forecastFile3 => "FORECAST_FILE_3".toList
  | forecastFile4 => "FORECAST_FILE_4".toList

/-- In the order of the `case`. -/
def all : List Parameter :=
  [configFile, logFilename, l1cFile, moccaFile, forecastFile1, forecastFile2, forecastFile3,
    forecastFile4]

/-- The branch of the `case` that a word takes, `none` for `*`. -/
def ofWord (word : Text) : Option Parameter := all.find? fun p => p.option = word

end Parameter

inductive LoopError where
  /-- `shift 2` with one word left, under `set -e`. -/
  | shiftFailed
deriving DecidableEq

/-- `while [[ $# -gt 0 ]]` -/
def parseArguments : List Text → Variables → Except LoopError Variables
  | [], vars => .ok vars
  | word :: rest, vars =>
      match Parameter.ofWord word with
      | none => parseArguments rest vars
      | some p =>
          match rest with
          | [] => .error .shiftFailed
          | value :: rest => parseArguments rest (vars.assign p.shellVariable (captured value))

/-- What the script takes from the variables. -/
def inputs (vars : Variables) : Inputs where
  l1cFile := vars.expand Parameter.l1cFile.shellVariable
  moccaFile := vars.expand Parameter.moccaFile.shellVariable
  forecastFile1 := vars.expand Parameter.forecastFile1.shellVariable
  forecastFile2 := vars.expand Parameter.forecastFile2.shellVariable
  forecastFile3 := vars.expand Parameter.forecastFile3.shellVariable
  forecastFile4 := vars.expand Parameter.forecastFile4.shellVariable

/-! ## Ways to pass a value -/

/-- A value can be passed bare or in one pair of quotes. -/
inductive Quoting where
  | bare | double | single
deriving DecidableEq

def Quoting.wrap : Quoting → Text → Text
  | bare, value => value
  | double, value => '"' :: (value ++ ['"'])
  | single, value => '\'' :: (value ++ ['\''])

def IsQuote (c : Char) : Prop := c = '"' ∨ c = '\''

instance (c : Char) : Decidable (IsQuote c) := inferInstanceAs (Decidable (c = '"' ∨ c = '\''))

/-- The value begins and ends with no quote character, and ends with no newline. -/
structure PlainValue (value : Text) : Prop where
  begins : ∀ c ∈ value.head?, ¬ IsQuote c
  ends : ∀ c ∈ value.getLast?, ¬ IsQuote c
  lastLine : ∀ c ∈ value.getLast?, c ≠ '\n'

theorem stripLeading_of_head {q : Char} {s : Text} (h : ∀ c ∈ s.head?, c ≠ q) :
    stripLeading q s = s := by
  cases s with
  | nil => rfl
  | cons c cs => exact if_neg (h c rfl)

theorem stripTrailing_of_last {q : Char} {s : Text} (h : ∀ c ∈ s.getLast?, c ≠ q) :
    stripTrailing q s = s := by
  rw [stripTrailing, if_neg]
  intro hlast
  exact h q hlast rfl

theorem stripTrailing_concat (q : Char) (s : Text) : stripTrailing q (s ++ [q]) = s := by
  rw [stripTrailing, if_pos List.getLast?_concat, List.dropLast_concat]

/-- Stripping a quote that is not there changes nothing. -/
theorem strip_of_plain {q : Char} {value : Text} (hq : IsQuote q) (h : PlainValue value) :
    stripTrailing q (stripLeading q value) = value := by
  have hne : ∀ c, ¬ IsQuote c → c ≠ q := fun c hc heq => hc (heq ▸ hq)
  rw [stripLeading_of_head fun c hc => hne c (h.begins c hc),
    stripTrailing_of_last fun c hc => hne c (h.ends c hc)]

/-- One pair of quotes is stripped. -/
theorem strip_wrapped (q : Char) (value : Text) :
    stripTrailing q (stripLeading q (q :: (value ++ [q]))) = value := by
  rw [stripLeading, if_pos rfl, stripTrailing_concat]

/-- A pair of quotes of the other kind is kept. -/
theorem strip_other {p q : Char} (hpq : p ≠ q) (value : Text) :
    stripTrailing q (stripLeading q (p :: (value ++ [p]))) = p :: (value ++ [p]) := by
  rw [stripLeading, if_neg hpq, ← List.cons_append]
  apply stripTrailing_of_last
  intro c hc
  rw [List.getLast?_concat] at hc
  exact Option.some.inj hc ▸ hpq

/-- **A value is recovered however it is passed.** -/
theorem captured_wrap (quoting : Quoting) {value : Text} (h : PlainValue value) :
    captured (quoting.wrap value) = value := by
  have hdouble := strip_of_plain (Or.inl rfl) h
  have hsingle := strip_of_plain (Or.inr rfl) h
  have hunquote : unquote (quoting.wrap value) = value := by
    cases quoting with
    | bare => rw [Quoting.wrap, unquote, hdouble, hsingle]
    | double => rw [Quoting.wrap, unquote, strip_wrapped, hsingle]
    | single => rw [Quoting.wrap, unquote, strip_other (by decide), strip_wrapped]
  rw [captured, hunquote, dropTrailingNewlines, List.rdropWhile_eq_self_iff]
  intro hne hlast
  exact h.lastLine _ (List.getLast?_eq_getLast_of_ne_nil hne) (beq_iff_eq.1 hlast)

/-! ## Invocations -/

/-- An option with its value, or a word that is passed over. -/
inductive Item where
  | pair (p : Parameter) (quoting : Quoting) (value : Text)
  | other (word : Text)

namespace Item

/-- The words of an item on the command line. -/
def words : Item → List Text
  | pair p quoting value => [p.option, quoting.wrap value]
  | other word => [word]

def pair? : Item → Option (Parameter × Quoting × Text)
  | pair p quoting value => some (p, quoting, value)
  | other _ => none

/-- The item is what it seems: a word that is passed over is no option, a value can be recovered. -/
def Readable : Item → Prop
  | pair _ _ value => PlainValue value
  | other word => ∀ p : Parameter, word ≠ p.option

end Item

/-- The assignments of some pairs, one after the other. -/
def assignAll (pairs : List (Parameter × Quoting × Text)) (vars : Variables) : Variables :=
  pairs.foldl (fun vars e => vars.assign e.1.shellVariable e.2.2) vars

theorem ofWord_option (p : Parameter) : Parameter.ofWord p.option = some p := by
  cases p <;> decide

theorem ofWord_other {word : Text} (h : ∀ p : Parameter, word ≠ p.option) :
    Parameter.ofWord word = none := by
  rw [Parameter.ofWord, List.find?_eq_none]
  intro p _ hp
  exact h p (of_decide_eq_true hp).symm

/-- One turn of the loop on a pair, whatever its value looks like. -/
theorem parseArguments_pair (p : Parameter) (value : Text) (rest : List Text) (vars : Variables) :
    parseArguments (p.option :: value :: rest) vars
      = parseArguments rest (vars.assign p.shellVariable (captured value)) := by
  rw [parseArguments, ofWord_option]

theorem parseArguments_other {word : Text} (h : ∀ p : Parameter, word ≠ p.option)
    (rest : List Text) (vars : Variables) :
    parseArguments (word :: rest) vars = parseArguments rest vars := by
  rw [parseArguments, ofWord_other h]

/-- **The loop keeps in step**: it makes the assignments of the pairs, in order, and ends. -/
theorem parseArguments_items {items : List Item} (h : ∀ i ∈ items, i.Readable) (vars : Variables) :
    parseArguments (items.flatMap Item.words) vars
      = .ok (assignAll (items.filterMap Item.pair?) vars) := by
  induction items generalizing vars with
  | nil => rfl
  | cons i items ih =>
      have hi : i.Readable := h i List.mem_cons_self
      have hrest := ih fun j hj => h j (List.mem_cons_of_mem _ hj)
      rw [List.flatMap_cons]
      cases i with
      | pair p quoting value =>
          have hvalue : captured (quoting.wrap value) = value := captured_wrap quoting hi
          show parseArguments (p.option :: quoting.wrap value :: items.flatMap Item.words) vars = _
          rw [parseArguments_pair, hvalue, hrest]
          rfl
      | other word =>
          show parseArguments (word :: items.flatMap Item.words) vars = _
          rw [parseArguments_other hi, hrest]
          rfl

/-! ## What the variables hold -/

theorem shellVariable_injective : Function.Injective Parameter.shellVariable := by
  intro p q h
  cases p <;> cases q <;> first | rfl | exact absurd h (by decide)

/-- A variable no pair is for stays as it was. -/
theorem assignAll_of_not_mem {pairs : List (Parameter × Quoting × Text)} {name : Text}
    (h : ∀ e ∈ pairs, name ≠ e.1.shellVariable) (vars : Variables) :
    assignAll pairs vars name = vars name := by
  induction pairs generalizing vars with
  | nil => rfl
  | cons e pairs ih =>
      show assignAll pairs (vars.assign e.1.shellVariable e.2.2) name = _
      rw [ih fun e' he' => h e' (List.mem_cons_of_mem _ he')]
      exact Function.update_of_ne (h e List.mem_cons_self) _ _

/-- The variable of a pair holds its value, wherever the pair stands. -/
theorem assignAll_of_mem {pairs : List (Parameter × Quoting × Text)}
    (hn : (pairs.map Prod.fst).Nodup) {e : Parameter × Quoting × Text} (he : e ∈ pairs)
    (vars : Variables) : assignAll pairs vars e.1.shellVariable = some e.2.2 := by
  induction pairs generalizing vars with
  | nil => exact absurd he List.not_mem_nil
  | cons e' pairs ih =>
      rw [List.map_cons, List.nodup_cons] at hn
      show assignAll pairs (vars.assign e'.1.shellVariable e'.2.2) e.1.shellVariable = _
      rcases List.mem_cons.1 he with rfl | he
      · -- no later pair is for the same variable
        rw [assignAll_of_not_mem]
        · exact Function.update_self _ _ _
        · intro e' he' heq
          exact hn.1 (shellVariable_injective heq ▸ List.mem_map_of_mem he')
      · exact ih hn.2 he _

/-- The pairs of an assignment of values to options, in the order of the `case`. -/
def pairsOf (given : Parameter → Option Text) (quoting : Parameter → Quoting) :
    List (Parameter × Quoting × Text) :=
  Parameter.all.filterMap fun p => (given p).map fun value => (p, quoting p, value)

theorem Parameter.mem_all (p : Parameter) : p ∈ Parameter.all := by
  cases p <;> decide

theorem mem_pairsOf {given : Parameter → Option Text} {quoting : Parameter → Quoting}
    {e : Parameter × Quoting × Text} :
    e ∈ pairsOf given quoting ↔ given e.1 = some e.2.2 ∧ quoting e.1 = e.2.1 := by
  rw [pairsOf, List.mem_filterMap]
  constructor
  · intro h
    obtain ⟨p, -, hp⟩ := h
    obtain ⟨value, hvalue, rfl⟩ := Option.map_eq_some_iff.1 hp
    exact ⟨hvalue, rfl⟩
  · intro h
    exact ⟨e.1, Parameter.mem_all _, by rw [h.1, h.2]; rfl⟩

theorem nodup_pairsOf (given : Parameter → Option Text) (quoting : Parameter → Quoting) :
    ((pairsOf given quoting).map Prod.fst).Nodup := by
  have hsub : ((pairsOf given quoting).map Prod.fst).Sublist Parameter.all := by
    unfold pairsOf
    generalize Parameter.all = ps
    induction ps with
    | nil => exact List.Sublist.slnil
    | cons p ps ih =>
        cases hp : given p with
        | none =>
            rw [List.filterMap_cons_none (by rw [hp]; rfl)]
            exact ih.cons p
        | some value =>
            rw [List.filterMap_cons_some (by rw [hp]; rfl)]
            exact ih.cons_cons p
  exact hsub.nodup (by decide)

/-- The script cannot tell the variable of `p` from one that is not set. -/
structure NotProvided (vars : Variables) (p : Parameter) : Prop where
  empty : vars.expand p.shellVariable = []
  unset : vars.expand = (vars.unset p.shellVariable).expand

theorem notProvided_of_empty {vars : Variables} {p : Parameter}
    (h : vars p.shellVariable = some []) : NotProvided vars p := by
  have hempty : vars.expand p.shellVariable = [] := by
    rw [Variables.expand, h]
    rfl
  refine ⟨hempty, ?_⟩
  funext name
  by_cases hname : name = p.shellVariable
  · rw [hname, hempty, Variables.expand, Variables.unset, Function.update_self]
    rfl
  · rw [Variables.expand, Variables.expand, Variables.unset, Function.update_of_ne hname]

/-- An input that is not provided is not staged. -/
theorem launch_notProvided {vars : Variables} {p : Parameter} (h : NotProvided vars p) (host : Host)
    (order : ReadOrder) :
    launch host order (inputs vars) = launch host order (inputs (vars.unset p.shellVariable)) := by
  have hinputs : inputs vars = inputs (vars.unset p.shellVariable) := by
    unfold inputs
    rw [h.unset]
  rw [hinputs]

/-- **The loop recovers the invocation**: in every order of the pairs, however each value is passed and
whatever other words stand between them, it ends with each option's variable at its value and every
other variable as it was; an option whose value is empty is not provided. -/
theorem parseArguments_recovers {given : Parameter → Option Text} {items : List Item}
    (quoting : Parameter → Quoting) (vars : Variables)
    (hvalues : ∀ p value, given p = some value → PlainValue value)
    (hpairs : (items.filterMap Item.pair?).Perm (pairsOf given quoting))
    (hother : ∀ word, Item.other word ∈ items → ∀ p : Parameter, word ≠ p.option) :
    ∃ vars', parseArguments (items.flatMap Item.words) vars = .ok vars' ∧
      (∀ p value, given p = some value → vars' p.shellVariable = some value) ∧
      (∀ name, (∀ p, given p ≠ none → name ≠ p.shellVariable) → vars' name = vars name) ∧
      (∀ p, given p = some [] → NotProvided vars' p) := by
  have hmem : ∀ e, e ∈ items.filterMap Item.pair? ↔ given e.1 = some e.2.2 ∧ quoting e.1 = e.2.1 :=
    fun e => hpairs.mem_iff.trans mem_pairsOf
  have hreadable : ∀ i ∈ items, i.Readable := by
    intro i hi
    cases i with
    | pair p q value =>
        have hp := (hmem (p, q, value)).1 (List.mem_filterMap.2 ⟨_, hi, rfl⟩)
        exact hvalues p value hp.1
    | other word => exact hother word hi
  have hnodup : ((items.filterMap Item.pair?).map Prod.fst).Nodup :=
    (hpairs.map Prod.fst).nodup_iff.2 (nodup_pairsOf given quoting)
  have hgiven : ∀ p value, given p = some value →
      assignAll (items.filterMap Item.pair?) vars p.shellVariable = some value := by
    intro p value hp
    exact assignAll_of_mem hnodup ((hmem (p, quoting p, value)).2 ⟨hp, rfl⟩) vars
  refine ⟨_, parseArguments_items hreadable vars, hgiven, ?_, ?_⟩
  · intro name hname
    apply assignAll_of_not_mem
    intro e he
    have hsome := ((hmem e).1 he).1
    exact hname e.1 (by rw [hsome]; exact Option.some_ne_none _)
  · intro p hp
    exact notProvided_of_empty (hgiven p [] hp)

/-! ### An invocation with a value that looks like an option -/

/-- The L1C input is called like an option, the MOCCA input is not set. -/
def sampleValues : Parameter → Option Text
  | .l1cFile => some "--mocca_file".toList
  | .moccaFile => some []
  | _ => none

def sampleQuoting : Parameter → Quoting
  | .moccaFile => .double
  | _ => .bare

def sampleItems : List Item :=
  [.other "--verbose".toList, .pair .moccaFile .double [], .other "--l1c".toList,
    .pair .l1cFile .bare "--mocca_file".toList]

theorem parseArguments_recovers_sample :
    ∃ vars', parseArguments (sampleItems.flatMap Item.words) (fun _ => none) = .ok vars' ∧
      (∀ p value, sampleValues p = some value → vars' p.shellVariable = some value) ∧
      (∀ name, (∀ p, sampleValues p ≠ none → name ≠ p.shellVariable) → vars' name = none) ∧
      (∀ p, sampleValues p = some [] → NotProvided vars' p) := by
  apply parseArguments_recovers sampleQuoting
  · intro p value h
    cases p <;> cases h
    · exact ⟨by rintro c ⟨⟩; decide, by rintro c ⟨⟩; decide, by rintro c ⟨⟩; decide⟩
    · exact ⟨by rintro c ⟨⟩, by rintro c ⟨⟩, by rintro c ⟨⟩⟩
  · exact List.Perm.swap _ _ _
  · intro word h p
    have hword : word = "--verbose".toList ∨ word = "--l1c".toList := by
      simpa [sampleItems] using h
    rcases hword with rfl | rfl <;> cases p <;> decide

end JosfraPge.Launcher.ArgumentLoop
