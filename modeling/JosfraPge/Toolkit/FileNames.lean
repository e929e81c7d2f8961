import JosfraPge.Toolkit.ControlAreas

/-!
# The names the lookup makes

The name of a file is the path on its line, or the default location of its area, below `PGSHOME` where it
starts with `~`, and its name on the line.

* `getRequest_name`, `getRequest_path`: what is read of an entry's line;
* `getPCEnv_eq`, `getFileName_eq`: the directory and the name that are made of it;
* `genOpenName_lines`: in a well-formed file the lookup finds the entry that is meant, under that name.
-/

namespace JosfraPge.Toolkit.FileNames

open JosfraPge.Foundation.LineText
open JosfraPge.Foundation.IntLiteral
open JosfraPge.Foundation.DelimitedField
open JosfraPge.Foundation.RunRules
open JosfraPge.Toolkit.ProcessControl
open JosfraPge.Toolkit.ControlAreas

variable {infoFile : Text}

/-! ## Making the name -/

section Requests

variable {s : Text} {size num : ℕ}

theorem afterDelimiters_field (hs : Plain s) (rest : Text) :
    afterDelimiters infoFile (num + 1) (s ++ '|' :: rest) = afterDelimiters infoFile num rest := by
  obtain ⟨hdelimiter, hnewline⟩ := hs
  induction s with
  | nil => rfl
  | cons c s ih =>
      rw [List.mem_cons, not_or] at hdelimiter hnewline
      rw [List.cons_append, afterDelimiters, if_neg (Ne.symm hnewline.1), if_neg (Ne.symm hdelimiter.1),
        ih hdelimiter.2 hnewline.2]

end Requests

/-- A request for the field after some delimiters. -/
theorem getRequest_eq {size num : ℕ} {endChar : Char} {line out rest : Text}
    (hafter : afterDelimiters infoFile num line = .ok (out ++ endChar :: rest)) (hout : endChar ∉ out)
    (hlen : out.length < size) :
    getRequest infoFile size num endChar line = if out = [] then .error .noDataPresent else .ok out := by
  unfold getRequest
  rw [except_bind_eq hafter, if_pos (by simp), (takeWhile_field hout).1, except_bind_eq (hold_eq hlen)]
  rfl

section Fields

variable (e : Entry)

theorem getRequest_name : getRequest infoFile 256 1 '|' e.line = .ok e.name := by
  have hafter : ∃ rest, afterDelimiters infoFile 1 e.line = .ok (e.name ++ '|' :: rest) := by
    unfold Entry.line
    rw [afterDelimiters_field e.label_plain]
    exact ⟨_, afterDelimiters_zero _⟩
  obtain ⟨rest, hafter⟩ := hafter
  rw [getRequest_eq hafter e.name_plain.delimiter (Nat.lt_succ_of_le e.name_length), if_neg e.name_ne]

theorem getRequest_path (hlen : e.path.length < 501) :
    getRequest infoFile 501 2 '|' e.line = if e.path = [] then .error .noDataPresent else .ok e.path := by
  have hafter : ∃ rest, afterDelimiters infoFile 2 e.line = .ok (e.path ++ '|' :: rest) := by
    unfold Entry.line
    rw [afterDelimiters_field e.label_plain, afterDelimiters_field e.name_plain]
    exact ⟨_, afterDelimiters_zero _⟩
  obtain ⟨rest, hafter⟩ := hafter
  exact getRequest_eq hafter e.path_plain.delimiter hlen

theorem getRequest_trailer : getRequest infoFile 501 6 '\n' e.line = .ok e.trailer := by
  have hafter : afterDelimiters infoFile 6 e.line = .ok (e.trailer ++ ['\n']) := by
    unfold Entry.line
    rw [afterDelimiters_field e.label_plain, afterDelimiters_field e.name_plain,
      afterDelimiters_field e.path_plain, afterDelimiters_field e.reserved_plain,
      afterDelimiters_field e.universalReference_plain, afterDelimiters_field e.attributes_plain,
      afterDelimiters_zero]
  rw [getRequest_eq hafter e.trailer_plain (Nat.lt_succ_of_le e.trailer_length), if_neg e.trailer_ne]

end Fields

/-! ### The default location -/

/-- A line end after the text does not change where its first graphic character is. -/
theorem dropWhile_newline (s : Text) (h : s.dropWhile (fun c => !isGraph c) ≠ []) (hs : '\n' ∉ s) :
    (s ++ ['\n']).dropWhile (fun c => !isGraph c && c ≠ '\n')
      = s.dropWhile (fun c => !isGraph c) ++ ['\n'] := by
  induction s with
  | nil => exact absurd rfl h
  | cons c s ih =>
      rw [List.mem_cons, not_or] at hs
      rw [List.cons_append]
      by_cases hc : isGraph c = true
      · rw [List.dropWhile_cons_of_neg (by simp [hc]), List.dropWhile_cons_of_neg (by simp [hc]),
          List.cons_append]
      · rw [List.dropWhile_cons_of_pos (by simp [hc])] at h
        rw [List.dropWhile_cons_of_pos (by simp [hc, Ne.symm hs.1]),
          List.dropWhile_cons_of_pos (by simp [hc]), ih h hs.2]

section DefaultLocation

variable (a : Area)

theorem retrieveDefaultLoc_line (hlen : a.location.length < 768) :
    retrieveDefaultLoc infoFile a.defaultLine = .ok a.location := by
  have hstart : (a.defaultLine.drop 1).dropWhile (fun c => !isGraph c && c ≠ '\n')
      = a.location ++ ['\n'] := dropWhile_newline a.default a.default_graph a.default_plain
  have hne : a.location ≠ [] := a.default_graph
  unfold retrieveDefaultLoc
  simp only [hstart, (takeWhile_field a.newline_notMem_location).1]
  rw [if_neg (by simp), if_neg hne, if_neg (by omega), hold_eq hlen]

theorem findDefaultLocLine_content (rest : List Text) :
    findDefaultLocLine infoFile (a.content ++ rest) = .ok a.defaultLine := by
  unfold Area.content
  rw [List.append_assoc]
  induction a.comments with
  | nil =>
      have hdefault : a.defaultLine.head? = some '!' := rfl
      show findDefaultLocLine infoFile (a.defaultLine :: _) = _
      rw [findDefaultLocLine, if_neg (by simp [Area.defaultLine]), if_pos hdefault]
  | cons text comments ih => exact ih

end DefaultLocation

/-! ### The name that is meant -/

/-- A path below the directory of the toolkit. -/
def below (home path : Text) : Text :=
  if path.head? = some '~' then Host.endSlash home ++ Host.afterTilde path else path

/-- A default location; a `/` at the end of one below the directory of the toolkit is taken away. -/
def defaultDirectory (home location : Text) : Text :=
  if location.head? = some '~' then
    if (below home location).getLast? = some '/' then (below home location).dropLast
    else below home location
  else location

/-- The directory of a file. -/
def directory (home : Text) (a : Area) (e : Entry) : Text :=
  if e.path = [] then defaultDirectory home a.location else below home e.path

/-- The name of a file. -/
def fullName (home : Text) (a : Area) (e : Entry) : Text := Host.endSlash (directory home a e) ++ e.name

/-- What the lookup needs of the environment, and of the file it leads to. -/
structure Finds (host : Host) (f : ControlFile) (home : Text) : Prop where
  ascii : host.environ "PGSMEM_USESHM".toList ≠ some "YES".toList
  pgsHome : host.environ "PGSHOME".toList = some home
  absolute : home.head? = some '/'
  pcf : ∃ path, host.environ "PGS_PC_INFO_FILE".toList = some path ∧ host.file path = some f.lines

section Names

variable {host : Host} {f : ControlFile} {home : Text}

theorem Finds.openPCSFile (h : Finds host f home) : host.openPCSFile = .ok f.lines := by
  obtain ⟨path, hpath, hfile⟩ := h.pcf
  unfold Host.openPCSFile
  rw [if_neg h.ascii, hpath]
  simp only [hfile]

theorem Finds.home_length (h : Finds host f home) : 1 ≤ home.length := by
  have habsolute := h.absolute
  cases home with
  | nil => exact absurd habsolute (by simp)
  | cons c cs => simp

theorem Finds.slash_mem_home (h : Finds host f home) : '/' ∈ home :=
  List.mem_of_mem_head? h.absolute

theorem Finds.head?_endSlash (h : Finds host f home) (rest : Text) :
    (Host.endSlash home ++ rest).head? = some '/' := by
  have habsolute := h.absolute
  unfold Host.endSlash
  cases home with
  | nil => exact absurd habsolute (by simp)
  | cons c cs =>
      rw [List.head?_cons] at habsolute
      split <;> simpa using habsolute

theorem getPCEnv_eq (h : Finds host f home) (type : FileType)
    (hlen : (defaultDirectory home (f.area type).location).length ≤ 500) :
    host.getPCEnv type = .ok (defaultDirectory home (f.area type).location) := by
  have hhome := length_endSlash home
  unfold Host.getPCEnv
  rw [except_bind_eq h.openPCSFile, except_bind_eq (f.advanceArea_lines type),
    except_bind_eq (findDefaultLocLine_content _ _)]
  by_cases htilde : (f.area type).location.head? = some '~'
  · have hrest := length_afterTilde (f.area type).location
    have hbelow : below home (f.area type).location
        = Host.endSlash home ++ Host.afterTilde (f.area type).location := if_pos htilde
    have hlong : (below home (f.area type).location).length ≤ 501 := by
      rw [defaultDirectory, if_pos htilde] at hlen
      split at hlen
      · rw [List.length_dropLast] at hlen
        omega
      · omega
    rw [hbelow, List.length_append] at hlong
    rw [except_bind_eq (retrieveDefaultLoc_line _ (by omega)), if_neg (by simp [htilde]), h.pgsHome]
    simp only [if_pos h.slash_mem_home]
    rw [except_bind_eq (hold_eq (by omega)), if_neg (by omega),
      except_bind_eq (hold_eq (by rw [List.length_append]; omega)), defaultDirectory, if_pos htilde, hbelow]
    rfl
  · rw [defaultDirectory, if_neg htilde] at hlen ⊢
    rw [except_bind_eq (retrieveDefaultLoc_line _ (by omega)), if_pos htilde]
    rfl

theorem expandTilde_eq (h : Finds host f home) {path : Text} (hlen : (below home path).length ≤ 500) :
    host.expandTilde path = .ok (below home path) := by
  unfold Host.expandTilde
  by_cases htilde : path.head? = some '~'
  · have hbelow : below home path = Host.endSlash home ++ Host.afterTilde path := if_pos htilde
    rw [hbelow, List.length_append] at hlen
    rw [if_neg (by simp [htilde]), h.pgsHome]
    simp only
    rw [except_bind_eq (hold_eq (by omega)), except_bind_eq (hold_eq (by rw [List.length_append]; omega)),
      hold_eq (by rw [List.length_append]; omega), hbelow]
  · rw [if_pos htilde, below, if_neg htilde]

/-- A default location below the directory of the toolkit has no `~` left. -/
theorem below_defaultDirectory (h : Finds host f home) (location : Text) :
    below home (defaultDirectory home location) = defaultDirectory home location := by
  apply if_neg
  unfold defaultDirectory
  by_cases htilde : location.head? = some '~'
  · have hhead : (below home location).head? = some '/' := by
      rw [below, if_pos htilde]
      exact h.head?_endSlash _
    rw [if_pos htilde]
    split
    · rw [List.head?_dropLast, hhead]
      simp
    · rw [hhead]
      simp
  · rwa [if_neg htilde]

/-- **The name that is made is the one meant**, if it fits its array. -/
theorem getFileName_eq (h : Finds host f home) (type : FileType) (e : Entry)
    (hlen : (fullName home (f.area type) e).length ≤ 500) :
    host.getFileName type e.line = .ok (fullName home (f.area type) e) := by
  have hslash := length_endSlash (directory home (f.area type) e)
  have hhome := length_endSlash home
  have hpos := h.home_length
  have hname := List.length_pos_iff.2 e.name_ne
  have hdirectory : (directory home (f.area type) e).length ≤ 499 := by
    rw [fullName, List.length_append] at hlen
    omega
  have hexpand : ∃ path, host.linePath type e.line = .ok path ∧
      host.expandTilde path = .ok (directory home (f.area type) e) := by
    unfold Host.linePath
    by_cases hpath : e.path = []
    · rw [directory, if_pos hpath] at hdirectory ⊢
      rw [getRequest_path e (by simp [hpath]), if_pos hpath]
      simp only [getPCEnv_eq h type (by omega)]
      refine ⟨_, hold_eq (by omega), ?_⟩
      rw [expandTilde_eq h (by rw [below_defaultDirectory h]; omega), below_defaultDirectory h]
    · rw [directory, if_neg hpath] at hdirectory ⊢
      have hshort : e.path.length < 501 := by
        by_cases htilde : e.path.head? = some '~'
        · have hrest := length_afterTilde e.path
          rw [below, if_pos htilde, List.length_append] at hdirectory
          omega
        · rw [below, if_neg htilde] at hdirectory
          omega
      rw [getRequest_path e hshort, if_neg hpath]
      exact ⟨_, rfl, expandTilde_eq h (by omega)⟩
  obtain ⟨path, hpath, hdir⟩ := hexpand
  unfold Host.getFileName
  rw [except_bind_eq (getRequest_name e), except_bind_eq hpath, hdir]
  show host.appendName (directory home (f.area type) e) e.name = _
  rw [Host.appendName, if_neg (by omega)]
  exact hold_eq (Nat.lt_succ_of_le hlen)

theorem getPCSData_eq (h : Finds host f home) (type : FileType) (identifier version : ℕ) :
    host.getPCSData type identifier (version + 1 : ℕ)
      = match ((f.area type).versions identifier)[version]? with
        | some e => host.getFileName type e.line
        | none => .error .noFilesExist := by
  unfold Host.getPCSData
  rw [except_bind_eq h.openPCSFile]
  have hlocate := f.locateEntry_lines host.infoFile type identifier version
  cases hversion : ((f.area type).versions identifier)[version]? with
  | none =>
      rw [hversion] at hlocate
      exact except_bind_error hlocate
  | some e =>
      rw [hversion] at hlocate
      rw [except_bind_eq hlocate, except_bind_eq (getRequest_trailer e)]

theorem firstName_eq (h : Finds host f home) (identifier version : ℕ) (types : List FileType)
    (hlen : ∀ type e, f.find identifier version types = some (type, e) →
      (fullName home (f.area type) e).length ≤ 500) :
    host.firstName identifier (version + 1 : ℕ) types
      = match f.find identifier version types with
        | some (type, e) => .ok (fullName home (f.area type) e)
        | none => .error .fileNoExist := by
  induction types with
  | nil => rfl
  | cons type types ih =>
      unfold ControlFile.find at hlen ⊢
      unfold Host.firstName
      rw [getPCSData_eq h]
      cases hversion : ((f.area type).versions identifier)[version]? with
      | none =>
          rw [hversion] at hlen
          exact ih hlen
      | some e =>
          rw [hversion] at hlen
          simp only [getFileName_eq h type e (hlen type e rfl)]

end Names

/-! ## The lookup -/

/-- The order in which the areas are looked at. -/
def fileTypes : List FileType := [.productInput, .productOutput, .supportInput, .supportOutput]

/-- **The lookup finds what is meant**: the entry of the identifier and version, in the first area that has
so many, under its full name, and nothing if there is none. -/
theorem genOpenName_lines {host : Host} {f : ControlFile} {home : Text} (h : Finds host f home)
    (identifier version : ℕ)
    (hlen : ∀ type e, f.find identifier version fileTypes = some (type, e) →
      (fullName home (f.area type) e).length ≤ 500) :
    host.genOpenName identifier (version + 1 : ℕ)
      = match f.find identifier version fileTypes with
        | some (type, e) => .ok (fullName home (f.area type) e)
        | none => .error .fileNoExist :=
  firstName_eq h identifier version fileTypes hlen

end JosfraPge.Toolkit.FileNames
