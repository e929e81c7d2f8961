import JosfraPge.Foundation.DelimitedField
import JosfraPge.Foundation.IntLiteral
import JosfraPge.Foundation.RunRules
import JosfraPge.Product.Processing

/-!
# The process control file

A toolkit program names a file by a logical identifier.  `PGS_IO_Gen_Open` looks it up in four areas of the
process control file, which is read anew for each, line by line.  The file is the list of what `fgets`
yields, and a character is a byte.

* `getRequest`, `getIndex`, `locateEntry`: what is read of a line, and the search for a line;
* `Host.getPCEnv`, `Host.getFileName`: the default location of an area, and the name of a file;
* `Host.genOpenName`: the name that is opened.
-/

namespace JosfraPge.Toolkit.ProcessControl

open JosfraPge.Foundation.LineText
open JosfraPge.Foundation.IntLiteral
open JosfraPge.Foundation.DelimitedField
open JosfraPge.Foundation.RunRules
open JosfraPge.Product.Processing

/-! ## Lines and fields -/

inductive Fault where
  | environmentError
  | fileOpenError
  | fileReadError
  | lineFormatError
  | invalidVersion
  | noFilesExist
  | noDataPresent
  | noDefaultLoc
  /-- The data is looked for in shared memory. -/
  | sharedMemory
  /-- A read or a write outside an array, which C leaves undefined. -/
  | overrun
deriving DecidableEq

/-- A string that is written to an array of so many characters. -/
def hold (size : ℕ) (s : Text) : Except Fault Text :=
  if s.length < size then .ok s else .error .overrun

/-- The message of a status that is about a file, up to its name. -/
def Fault.message : Fault → Text
  | .fileOpenError => "Error opening file:  ".toList
  | .fileReadError => "Error while reading from Process Control file:  ".toList
  | .lineFormatError => "Incorrect format in line of file:  ".toList
  | _ => []

/-- `sprintf(buf,msg,...)` with the name of the process control file, into an array of 241 characters.  The
messages that hold the name of a variable, or none, are short. -/
def complain {α : Type} (infoFile : Text) (fault : Fault) : Except Fault α := do
  let _ ← hold 241 (fault.message ++ infoFile)
  throw fault

section Reading

variable (infoFile : Text)

/-- The line after so many `|`. -/
def afterDelimiters : ℕ → Text → Except Fault Text
  | 0, s => .ok s
  | _ + 1, [] => .error .overrun
  | num + 1, c :: cs =>
      if c = '\n' then complain infoFile .lineFormatError
      else if c = '|' then afterDelimiters num cs
      else afterDelimiters (num + 1) cs

/-- `PGS_PC_GetPCSDataGetRequest`, into an array of `size` characters. -/
def getRequest (size num : ℕ) (endChar : Char) (line : Text) : Except Fault Text := do
  let s ← afterDelimiters infoFile num line
  let out ← if endChar ∈ s then hold size (s.takeWhile (· != endChar)) else .error .overrun
  if out = [] then .error .noDataPresent else return out

/-- `(PGSt_PC_Logical) atol(cnum)` -/
def toLogical (cnum : Text) : ℕ := min (digitsValue cnum) (2 ^ 63 - 1) % 2 ^ 32

/-- The number before the first `|`, through an array of 33 characters. -/
def leadingLogical (line : Text) : Except Fault ℕ :=
  let cnum := line.takeWhile Char.isDigit
  if 33 < cnum.length then .error .overrun
  else if (line.drop cnum.length).head? ≠ some '|' then complain infoFile .lineFormatError
  else if cnum.length = 33 then .error .overrun
  else .ok (toLogical cnum)

/-- The last place of a flag is the one before the last of the line. -/
def flagged (flag : Char) (line : Text) : Bool :=
  match line.reverse with
  | last :: c :: _ => c = flag && last ≠ flag
  | _ => false

/-- `PGS_PC_CheckFlags`, for the flags of a deleted file. -/
def hasDelete (line : Text) : Bool := flagged 'D' line || (!flagged 'R' line && flagged 'B' line)

/-! ## The lookup in one area -/

/-- The kinds of file that are looked up. -/
inductive FileType where
  | productInput
  | productOutput
  | supportInput
  | supportOutput
deriving DecidableEq

/-- The number of dividers before the area. -/
def FileType.locator : FileType → ℕ
  | .productInput => 2
  | .productOutput => 3
  | .supportInput => 4
  | .supportOutput => 5

/-- `PGS_PC_GetPCSDataAdvanceArea` -/
def advanceArea : ℕ → List Text → Except Fault (List Text)
  | 0, lines => .ok lines
  | _ + 1, [] => complain infoFile .fileReadError
  | loop + 1, line :: lines =>
      if line.head? = some '?' then advanceArea loop lines else advanceArea (loop + 1) lines

/-- `PGS_PC_GetPCSDataGetIndex`: the line with the identifier, and the lines after it. -/
def getIndex (identifier : ℕ) : Bool → List Text → Except Fault (Text × List Text)
  | _, [] => complain infoFile .fileReadError
  | foundDefLoc, line :: lines =>
      if line.head? = some '#' then getIndex identifier foundDefLoc lines
      else if line.head? = some '!' ∧ !foundDefLoc then getIndex identifier true lines
      else if !(line.head?.any Char.isDigit) then .error .noFilesExist
      else if hasDelete line then getIndex identifier foundDefLoc lines
      else
        match leadingLogical infoFile line with
        | .error fault => .error fault
        | .ok check =>
            if check = identifier then .ok (line, lines) else getIndex identifier foundDefLoc lines

/-- The loop to the version that is asked for, one less than its number. -/
def getVersion (identifier : ℕ) : ℕ → List Text → Except Fault Text
  | 0, lines => (getIndex infoFile identifier false lines).map Prod.fst
  | version + 1, lines => do
      let (_, rest) ← getIndex infoFile identifier false lines
      getVersion identifier version rest

/-- `PGS_PC_GetPCSDataLocateEntry`, for a file. -/
def locateEntry (type : FileType) (identifier : ℕ) (numFiles : ℤ) (lines : List Text) :
    Except Fault Text := do
  let area ← advanceArea infoFile type.locator lines
  if numFiles ≤ 0 then .error .invalidVersion
  else getVersion infoFile identifier (numFiles.toNat - 1) area

/-- `PGS_PC_FindDefaultLocLine` -/
def findDefaultLocLine : List Text → Except Fault Text
  | [] => complain infoFile .fileReadError
  | line :: lines =>
      if line.head? = some '#' then findDefaultLocLine lines
      else if line.head? = some '!' then .ok line
      else .error .noDefaultLoc

/-- `isgraph` -/
def isGraph (c : Char) : Bool := 33 ≤ c.toNat && c.toNat ≤ 126

/-- The default location on its line. -/
def retrieveDefaultLoc (line : Text) : Except Fault Text :=
  let s := (line.drop 1).dropWhile fun c => !isGraph c && c ≠ '\n'
  if '\n' ∉ s then .error .overrun
  else
    let temp := s.takeWhile (· != '\n')
    if temp = [] then .error .noDefaultLoc
    else if 768 < temp.length then complain infoFile .lineFormatError
    else hold 768 temp

end Reading

/-! ## The name of a file -/

/-- What a program finds around it: its environment variables, and the lines of the files it can open. -/
structure Host where
  environ : Environ
  file : Text → Option (List Text)

namespace Host

variable (host : Host)

/-- `getenv("PGS_PC_INFO_FILE")`, as it is printed once the file is open. -/
def infoFile : Text := (host.environ "PGS_PC_INFO_FILE".toList).getD []

/-- `PGS_PC_GetPCSDataOpenPCSFile`, when the data is not in shared memory. -/
def openPCSFile : Except Fault (List Text) :=
  if host.environ "PGSMEM_USESHM".toList = some "YES".toList then .error .sharedMemory
  else
    match host.environ "PGS_PC_INFO_FILE".toList with
    | none => .error .environmentError
    | some inFileN =>
        match host.file inFileN with
        | none => complain inFileN .fileOpenError
        | some lines => .ok lines

/-- `/` is appended to what does not end in one. -/
def endSlash (s : Text) : Text := if s = [] ∨ s.getLast? = some '/' then s else s ++ ['/']

/-- The rest of a path after `~` or `~/`. -/
def afterTilde (path : Text) : Text := path.drop (if path[1]? = some '/' then 2 else 1)

/-- `PGS_PC_GetPCEnv`, into an array of 768 characters. -/
def getPCEnv (type : FileType) : Except Fault Text := do
  let lines ← host.openPCSFile
  let area ← advanceArea host.infoFile type.locator lines
  let line ← findDefaultLocLine host.infoFile area
  let defaultLoc ← retrieveDefaultLoc host.infoFile line
  if defaultLoc.head? ≠ some '~' then return defaultLoc
  else
    match host.environ "PGSHOME".toList with
    | none => .error .environmentError
    | some resEnv =>
        let tempPath ← hold 768 (if '/' ∈ resEnv then endSlash resEnv else resEnv)
        if 768 < tempPath.length + defaultLoc.length then complain host.infoFile .lineFormatError
        else
          let path ← hold 768 (tempPath ++ afterTilde defaultLoc)
          return if path.getLast? = some '/' then path.dropLast else path

/-- The path of a file: that of its line, or the default location. -/
def linePath (type : FileType) (line : Text) : Except Fault Text :=
  match getRequest host.infoFile 501 2 '|' line with
  | .error .noDataPresent =>
      match host.getPCEnv type with
      | .error .overrun => .error .overrun
      | .error _ => .error .environmentError
      | .ok path => hold 501 path
  | result => result

/-- A leading `~` stands for `PGSHOME`. -/
def expandTilde (fName : Text) : Except Fault Text :=
  if fName.head? ≠ some '~' then .ok fName
  else
    match host.environ "PGSHOME".toList with
    | none => .error .environmentError
    | some tem => do
        let tempPath ← hold 768 (endSlash tem)
        let pathHold ← hold 768 (tempPath ++ afterTilde fName)
        hold 501 pathHold

/-- The name after its path, in an array of 501 characters. -/
def appendName (fName fileN : Text) : Except Fault Text :=
  if 768 < fName.length then complain host.infoFile .lineFormatError
  else hold 501 (endSlash fName ++ fileN)

/-- `PGS_PC_GetPCSDataGetFileName` -/
def getFileName (type : FileType) (line : Text) : Except Fault Text := do
  let fileN ← getRequest host.infoFile 256 1 '|' line
  let path ← host.linePath type line
  match host.expandTilde path with
  -- without `PGSHOME` the name is appended all the same
  | .error .environmentError => do
      let _ ← host.appendName path fileN
      throw .environmentError
  | .error fault => throw fault
  | .ok fName => host.appendName fName fileN

/-- `PGS_PC_GetPCSData`, for the name of a file; the number of files that remain is not used. -/
def getPCSData (type : FileType) (identifier : ℕ) (numFiles : ℤ) : Except Fault Text := do
  let lines ← host.openPCSFile
  let line ← locateEntry host.infoFile type identifier numFiles lines
  let _ ← getRequest host.infoFile 501 6 '\n' line
  host.getFileName type line

/-- The statuses `PGS_IO_Gen_Open` ends with when it has no name to open. -/
inductive OpenFault where
  | badEnvironment
  | fileNoExist
  | referenceFailure
  | sharedMemory
  | overrun
deriving DecidableEq

/-- The loop over the kinds of file. -/
def firstName (identifier : ℕ) (version : ℤ) : List FileType → Except OpenFault Text
  | [] => .error .fileNoExist
  | type :: types =>
      match host.getPCSData type identifier version with
      | .ok name => .ok name
      | .error .noFilesExist => firstName identifier version types
      | .error .environmentError => .error .badEnvironment
      | .error .sharedMemory => .error .sharedMemory
      | .error .overrun => .error .overrun
      | .error _ => .error .referenceFailure

/-- The name that `PGS_IO_Gen_Open` opens. -/
def genOpenName (identifier : ℕ) (version : ℤ) : Except OpenFault Text :=
  host.firstName identifier version [.productInput, .productOutput, .supportInput, .supportOutput]

end Host

/-! ## Lengths -/

theorem hold_eq {size : ℕ} {s : Text} (h : s.length < size) : hold size s = .ok s := if_pos h

theorem afterDelimiters_zero {infoFile : Text} (s : Text) : afterDelimiters infoFile 0 s = .ok s := by
  rw [afterDelimiters]

theorem length_endSlash (s : Text) : s.length ≤ (Host.endSlash s).length ∧
    (Host.endSlash s).length ≤ s.length + 1 := by
  unfold Host.endSlash
  split <;> simp

theorem length_afterTilde (path : Text) : path.length ≤ (Host.afterTilde path).length + 2 := by
  unfold Host.afterTilde
  rw [List.length_drop]
  split <;> omega

end JosfraPge.Toolkit.ProcessControl
