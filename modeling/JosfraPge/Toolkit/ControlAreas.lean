import JosfraPge.Toolkit.ProcessControl

/-!
# Well-formed process control files

An area of the file starts with a divider, comments and its default location, and lists entries among
comments.

* `Entry`, `Area`, `ControlFile`: the files that are well formed, and what is meant by them;
* `ControlFile.advanceArea_lines`: the dividers lead to the area;
* `ControlFile.locateEntry_lines`: the search leads to the line of the version that is meant.
-/

namespace JosfraPge.Toolkit.ControlAreas

open JosfraPge.Foundation.LineText
open JosfraPge.Foundation.IntLiteral
open JosfraPge.Foundation.RunRules
open JosfraPge.Toolkit.ProcessControl

/-! ## Well-formed files -/

/-- A field has neither a delimiter nor a line end. -/
structure Plain (s : Text) : Prop where
  delimiter : '|' ∉ s
  newline : '\n' ∉ s

/-- An entry: the identifier, the name and the path of a file, three fields that are not looked at, and
what follows the last delimiter. -/
structure Entry where
  label : Text
  name : Text
  path : Text
  reserved : Text
  universalReference : Text
  attributes : Text
  trailer : Text
  label_digits : IsDigits label
  label_length : label.length ≤ 32
  name_ne : name ≠ []
  name_length : name.length ≤ 255
  name_plain : Plain name
  path_plain : Plain path
  reserved_plain : Plain reserved
  universalReference_plain : Plain universalReference
  attributes_plain : Plain attributes
  trailer_ne : trailer ≠ []
  trailer_length : trailer.length ≤ 500
  trailer_plain : '\n' ∉ trailer

namespace Entry

/-- The line of an entry. -/
def line (e : Entry) : Text :=
  e.label ++ '|' :: (e.name ++ '|' :: (e.path ++ '|' :: (e.reserved ++ '|' ::
    (e.universalReference ++ '|' :: (e.attributes ++ '|' :: (e.trailer ++ ['\n']))))))

def logical (e : Entry) : ℕ := toLogical e.label

/-- The file is flagged as deleted. -/
def deleted (e : Entry) : Bool := e.trailer.getLast? = some 'D' ∨ e.trailer.getLast? = some 'B'

end Entry

/-- A line of an area after its default location. -/
inductive BodyLine where
  | comment (text : Text)
  | entry (e : Entry)

namespace BodyLine

def line : BodyLine → Text
  | .comment text => '#' :: text
  | .entry e => e.line

/-- The entry, if it is one of these. -/
def version? (identifier : ℕ) : BodyLine → Option Entry
  | .comment _ => none
  | .entry e => if e.deleted = false ∧ e.logical = identifier then some e else none

end BodyLine

/-- An area: its divider, comments, the default location after its `!`, and the other lines. -/
structure Area where
  title : Text
  comments : List Text
  default : Text
  body : List BodyLine
  default_plain : '\n' ∉ default
  default_graph : default.dropWhile (fun c => !isGraph c) ≠ []

namespace Area

variable (a : Area)

def divider : Text := '?' :: a.title

def defaultLine : Text := '!' :: (a.default ++ ['\n'])

/-- The lines after the divider. -/
def content : List Text :=
  a.comments.map (fun text => '#' :: text) ++ a.defaultLine :: a.body.map BodyLine.line

/-- The default location. -/
def location : Text := a.default.dropWhile fun c => !isGraph c

/-- The entries of an identifier. -/
def versions (identifier : ℕ) : List Entry := a.body.filterMap (BodyLine.version? identifier)

end Area

def isDivider (line : Text) : Bool := line.head? = some '?'

/-- A process control file: an area of system parameters, those of the files, and what comes after. -/
structure ControlFile where
  system : List Text
  area : FileType → Area
  rest : List Text
  system_divider : system.countP isDivider = 1
  rest_divider : rest.head?.any isDivider = true

namespace ControlFile

variable (f : ControlFile)

/-- The lines of one area. -/
def areaLines (type : FileType) : List Text := (f.area type).divider :: (f.area type).content

def before : FileType → List Text
  | .productInput => f.system
  | .productOutput => f.system ++ f.areaLines .productInput
  | .supportInput => f.system ++ f.areaLines .productInput ++ f.areaLines .productOutput
  | .supportOutput =>
      f.system ++ f.areaLines .productInput ++ f.areaLines .productOutput ++ f.areaLines .supportInput

def after : FileType → List Text
  | .productInput =>
      f.areaLines .productOutput ++ f.areaLines .supportInput ++ f.areaLines .supportOutput ++ f.rest
  | .productOutput => f.areaLines .supportInput ++ f.areaLines .supportOutput ++ f.rest
  | .supportInput => f.areaLines .supportOutput ++ f.rest
  | .supportOutput => f.rest

/-- What `fgets` yields. -/
def lines : List Text :=
  f.system ++ f.areaLines .productInput ++ f.areaLines .productOutput ++ f.areaLines .supportInput ++
    f.areaLines .supportOutput ++ f.rest

/-- The entry that is meant: in the first area that has so many versions of the identifier. -/
def find (identifier version : ℕ) : List FileType → Option (FileType × Entry)
  | [] => none
  | type :: types =>
      match ((f.area type).versions identifier)[version]? with
      | some e => some (type, e)
      | none => find identifier version types

end ControlFile

/-- A field of digits is plain. -/
theorem Entry.label_plain (e : Entry) : Plain e.label := by
  constructor
  · intro hmem
    exact absurd (e.label_digits.2 _ hmem) (by decide)
  · intro hmem
    exact absurd (e.label_digits.2 _ hmem) (by decide)

theorem Area.newline_notMem_location (a : Area) : '\n' ∉ a.location := fun hmem =>
  a.default_plain ((List.dropWhile_suffix _).subset hmem)

/-! ## Finding the line -/

section Finding

variable {infoFile : Text}

/-- A stretch of the file is skipped while dividers are left to count. -/
theorem advanceArea_append (loop : ℕ) (lines rest : List Text) :
    advanceArea infoFile (lines.countP isDivider + (loop + 1)) (lines ++ rest)
      = advanceArea infoFile (loop + 1) rest := by
  induction lines with
  | nil => rw [List.countP_nil, Nat.zero_add, List.nil_append]
  | cons line lines ih =>
      rw [List.cons_append]
      by_cases hdivider : line.head? = some '?'
      · have hcount : (line :: lines).countP isDivider = lines.countP isDivider + 1 :=
          List.countP_cons_of_pos (decide_eq_true hdivider)
        rw [hcount, Nat.add_right_comm, advanceArea, if_pos hdivider, ih]
      · have hcount : (line :: lines).countP isDivider = lines.countP isDivider :=
          List.countP_cons_of_neg (by simpa [isDivider] using hdivider)
        rw [hcount, ← Nat.add_assoc, advanceArea, if_neg hdivider, Nat.add_assoc, ih]

theorem head?_entry_line (e : Entry) : e.line.head?.any Char.isDigit = true := by
  obtain ⟨hne, hdigits⟩ := e.label_digits
  obtain ⟨c, cs, hlabel⟩ := List.exists_cons_of_ne_nil hne
  have hc : c.isDigit = true := hdigits c (hlabel ▸ List.mem_cons_self)
  unfold Entry.line
  rw [hlabel]
  simpa using hc

theorem head?_ne_of_isDigit {line : Text} {c : Char} (h : line.head?.any Char.isDigit = true)
    (hc : c.isDigit = false) : line.head? ≠ some c := by
  intro hhead
  rw [hhead] at h
  simp [hc] at h

theorem not_divider_content (a : Area) : a.content.countP isDivider = 0 := by
  rw [List.countP_eq_zero]
  intro line hline
  unfold Area.content at hline
  rcases List.mem_append.1 hline with hcomment | hline
  · obtain ⟨text, -, rfl⟩ := List.mem_map.1 hcomment
    simp [isDivider]
  · rcases List.mem_cons.1 hline with rfl | hbody
    · simp [isDivider, Area.defaultLine]
    · obtain ⟨b, -, rfl⟩ := List.mem_map.1 hbody
      cases b with
      | comment text => simp [isDivider, BodyLine.line]
      | entry e =>
          have hne := head?_ne_of_isDigit (c := '?') (head?_entry_line e) rfl
          simp [isDivider, BodyLine.line, hne]

/-- The file around one of its areas. -/
theorem ControlFile.lines_eq (f : ControlFile) (type : FileType) :
    f.lines = f.before type ++ (f.area type).divider :: ((f.area type).content ++ f.after type) := by
  cases type <;> simp [ControlFile.lines, ControlFile.before, ControlFile.after, ControlFile.areaLines]

theorem ControlFile.countP_before (f : ControlFile) (type : FileType) :
    (f.before type).countP isDivider + 1 = type.locator := by
  have harea : ∀ type, (f.areaLines type).countP isDivider = 1 := by
    intro type
    have hcount : (f.areaLines type).countP isDivider = (f.area type).content.countP isDivider + 1 :=
      List.countP_cons_of_pos rfl
    rw [hcount, not_divider_content]
  cases type <;> simp [ControlFile.before, FileType.locator, f.system_divider, harea]

/-- **The dividers lead to the area.** -/
theorem ControlFile.advanceArea_lines (f : ControlFile) (type : FileType) :
    advanceArea infoFile type.locator f.lines = .ok ((f.area type).content ++ f.after type) := by
  have hdivider : (f.area type).divider.head? = some '?' := rfl
  rw [f.lines_eq type, ← f.countP_before type, advanceArea_append 0, advanceArea, if_pos hdivider,
    advanceArea]

theorem ControlFile.after_divider (f : ControlFile) (type : FileType) :
    (f.after type).head?.any isDivider = true := by
  cases type with
  | supportOutput => exact f.rest_divider
  | productInput => rfl
  | productOutput => rfl
  | supportInput => rfl

/-! ### The line of an entry -/

section Line

variable (e : Entry)

theorem leadingLogical_line : leadingLogical infoFile e.line = .ok e.logical := by
  have hlabel : e.line.takeWhile Char.isDigit = e.label := by
    unfold Entry.line
    rw [List.takeWhile_append_of_pos e.label_digits.2, List.takeWhile_cons_of_neg (by decide),
      List.append_nil]
  have hlen := e.label_length
  have hnext : (e.line.drop e.label.length).head? = some '|' := by
    unfold Entry.line
    rw [List.drop_left]
    rfl
  unfold leadingLogical
  simp only [hlabel, hnext]
  rw [if_neg (by omega), if_neg (by simp), if_neg (by omega)]
  rfl

theorem flagged_line {flag : Char} (hflag : flag ≠ '\n') :
    flagged flag e.line = decide (e.trailer.getLast? = some flag) := by
  rcases List.eq_nil_or_concat e.trailer with hnil | ⟨front, last, htrailer⟩
  · exact absurd hnil e.trailer_ne
  · have hreverse : ∃ start, e.line.reverse = '\n' :: last :: start := by
      unfold Entry.line
      rw [htrailer]
      simp
    obtain ⟨start, hreverse⟩ := hreverse
    unfold flagged
    rw [hreverse, htrailer]
    simp [hflag.symm]

theorem hasDelete_line : hasDelete e.line = e.deleted := by
  unfold hasDelete Entry.deleted
  rw [flagged_line e (by decide), flagged_line e (by decide), flagged_line e (by decide)]
  by_cases hR : e.trailer.getLast? = some 'R'
  · simp [hR]
  · simp [hR]

end Line

/-! ### The search in an area -/

section Search

variable (infoFile) (identifier : ℕ) (foundDefLoc : Bool) (lines : List Text)

theorem getIndex_comment (text : Text) :
    getIndex infoFile identifier foundDefLoc (('#' :: text) :: lines)
      = getIndex infoFile identifier foundDefLoc lines :=
  if_pos rfl

theorem getIndex_entry (e : Entry) :
    getIndex infoFile identifier foundDefLoc (e.line :: lines)
      = if e.deleted = false ∧ e.logical = identifier then .ok (e.line, lines)
        else getIndex infoFile identifier foundDefLoc lines := by
  have hdigit := head?_entry_line e
  rw [getIndex, if_neg (head?_ne_of_isDigit hdigit rfl),
    if_neg (fun h => head?_ne_of_isDigit hdigit rfl h.1), hdigit, hasDelete_line, leadingLogical_line]
  cases e.deleted <;> simp

theorem getIndex_divider {lines : List Text} (h : lines.head?.any isDivider = true) :
    getIndex infoFile identifier foundDefLoc lines = .error .noFilesExist := by
  cases lines with
  | nil => simp at h
  | cons line lines =>
      have hhead : line.head? = some '?' := of_decide_eq_true h
      rw [getIndex, hhead]
      simp

end Search

section Versions

variable {identifier : ℕ} {rest : List Text}

/-- What one search skips, all of them do. -/
theorem getVersion_skip {line : Text} {lines : List Text}
    (h : getIndex infoFile identifier false (line :: lines) = getIndex infoFile identifier false lines)
    (version : ℕ) : getVersion infoFile identifier version (line :: lines)
      = getVersion infoFile identifier version lines := by
  cases version with
  | zero => exact congrArg (Except.map Prod.fst) h
  | succ version =>
      show getIndex infoFile identifier false (line :: lines) >>= _
        = getIndex infoFile identifier false lines >>= _
      rw [h]

theorem getVersion_divider (hrest : rest.head?.any isDivider = true) (version : ℕ) :
    getVersion infoFile identifier version rest = .error .noFilesExist := by
  have hnone := getIndex_divider infoFile identifier false hrest
  cases version with
  | zero =>
      show (getIndex infoFile identifier false rest).map Prod.fst = _
      rw [hnone]
      rfl
  | succ version => exact except_bind_error hnone

/-- **One search after the other comes to the version that is asked for.** -/
theorem getVersion_body (hrest : rest.head?.any isDivider = true) (body : List BodyLine) (version : ℕ) :
    getVersion infoFile identifier version (body.map BodyLine.line ++ rest)
      = match (body.filterMap (BodyLine.version? identifier))[version]? with
        | some e => .ok e.line
        | none => .error .noFilesExist := by
  induction body generalizing version with
  | nil => exact getVersion_divider hrest version
  | cons b body ih =>
      cases b with
      | comment text =>
          exact (getVersion_skip (getIndex_comment infoFile identifier false _ text) version).trans
            (ih version)
      | entry e =>
          show getVersion infoFile identifier version (e.line :: (body.map BodyLine.line ++ rest)) = _
          have hindex := getIndex_entry infoFile identifier false (body.map BodyLine.line ++ rest) e
          by_cases hmatch : e.deleted = false ∧ e.logical = identifier
          · have hversion : BodyLine.version? identifier (.entry e) = some e := if_pos hmatch
            have hfound := hindex.trans (if_pos hmatch)
            rw [List.filterMap_cons_some hversion]
            cases version with
            | zero => exact congrArg (Except.map Prod.fst) hfound
            | succ version => exact (except_bind_eq hfound).trans (ih version)
          · have hversion : BodyLine.version? identifier (.entry e) = none := if_neg hmatch
            rw [List.filterMap_cons_none hversion, ← ih version]
            exact getVersion_skip (hindex.trans (if_neg hmatch)) version

/-- The default location makes no difference to the searches after it. -/
theorem getIndex_body (hrest : rest.head?.any isDivider = true) (body : List BodyLine) :
    getIndex infoFile identifier true (body.map BodyLine.line ++ rest)
      = getIndex infoFile identifier false (body.map BodyLine.line ++ rest) := by
  induction body with
  | nil => exact (getIndex_divider _ _ _ hrest).trans (getIndex_divider _ _ _ hrest).symm
  | cons b body ih =>
      cases b with
      | comment text => exact ih
      | entry e =>
          show getIndex infoFile identifier true (e.line :: (body.map BodyLine.line ++ rest))
            = getIndex infoFile identifier false (e.line :: (body.map BodyLine.line ++ rest))
          rw [getIndex_entry, getIndex_entry, ih]

theorem getVersion_content (a : Area) (hrest : rest.head?.any isDivider = true) (version : ℕ) :
    getVersion infoFile identifier version (a.content ++ rest)
      = getVersion infoFile identifier version (a.body.map BodyLine.line ++ rest) := by
  unfold Area.content
  rw [List.append_assoc]
  induction a.comments with
  | nil =>
      apply getVersion_skip
      show getIndex infoFile identifier false (a.defaultLine :: (a.body.map BodyLine.line ++ rest)) = _
      rw [getIndex, if_neg (by simp [Area.defaultLine]), if_pos ⟨rfl, rfl⟩]
      exact getIndex_body hrest a.body
  | cons text comments ih =>
      exact (getVersion_skip (getIndex_comment infoFile identifier false _ text) version).trans ih

end Versions

/-- **The line that is located is that of the version meant**, in an area that has so many. -/
theorem ControlFile.locateEntry_lines (f : ControlFile) (infoFile : Text) (type : FileType)
    (identifier version : ℕ) :
    locateEntry infoFile type identifier (version + 1 : ℕ) f.lines
      = match ((f.area type).versions identifier)[version]? with
        | some e => .ok e.line
        | none => .error .noFilesExist := by
  have hafter := f.after_divider type
  unfold locateEntry
  rw [except_bind_eq (f.advanceArea_lines type), if_neg (by omega)]
  show getVersion infoFile identifier version _ = _
  rw [getVersion_content _ hafter, getVersion_body hafter]
  rfl

end Finding

end JosfraPge.Toolkit.ControlAreas
