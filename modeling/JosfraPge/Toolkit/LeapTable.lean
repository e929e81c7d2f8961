import JosfraPge.Foundation.LineText
import JosfraPge.Foundation.RunRules
import JosfraPge.Foundation.TableCursor

/-!
# The leap second table

`PGS_TD_LeapSec` reads `leapsec.dat` at its first call, keeps the table in static variables and searches it
from where the last search ended.  Its doubles are of any type with comparisons, which a NaN fails; what it
computes with them is a parameter, or enters as the formula it uses.

* `safe_run`: what the static variables satisfy after any calls, with any files;
* `leapSec_brackets`: a tabulated answer is in force at the time that is compared;
* `answers_plain`: with sorted tables the answers are those of a plain lookup, whatever came before.
-/

namespace JosfraPge.Toolkit.LeapTable

open JosfraPge.Foundation.LineText
open JosfraPge.Foundation.RunRules
open JosfraPge.Foundation.TableCursor

/-! ## The file -/

/-- The status codes that are returned, or that the header's time conversion leaves behind. -/
inductive Status where
  | success
  | leapSecIgnored
  | timeFmtError
  | timeValueError
  | toolkitError
  | jdOutOfRange
  | dataFileMissing
  | noLeapSecs
deriving DecidableEq

/-- What `sscanf` takes from a data line. -/
structure LeapRecord (α : Type) where
  jd : α
  leapSeconds : α
  baseDay : α
  slope : α
  predict : Text

/-- A file that is open: what `PGS_TD_UTCtoUTCjd` makes of the time in its header, what `strtok` leaves of
the header in its buffer, the lines after the header as `fgets` cuts them, and whether it can be closed. -/
structure LeapFile (α : Type) where
  headerStatus : Status
  updateJD : α
  headerRest : Text
  rows : List Text
  closes : Bool

/-- What `PGS_IO_Gen_Open` answers. -/
inductive Opening (α : Type) where
  | opened (file : LeapFile α)
  | missing
  /-- A code that the function does not know. -/
  | unknown

/-- The static arrays once they are read: the first record, which also gives `jdfirst`, and the others. -/
structure Table (α : Type) where
  first : LeapRecord α
  rest : List (LeapRecord α)
  jdlast : α

namespace Table

variable {α : Type} (table : Table α)

def records : List (LeapRecord α) := table.first :: table.rest

def keys : List α := table.records.map LeapRecord.jd

end Table

section Reading

variable {α : Type} [LT α] [DecidableLT α] (extend : α → α) (scanRow : Text → Option (LeapRecord α))

def arraySize : ℕ := 200

/-- `sscanf`, with the check of its five fields. -/
def scanned (row : Text) : Except Status (LeapRecord α) := (scanRow row).elim (.error .noLeapSecs) .ok

/-- The lines after the first data line, up to a short one; `numrecs` records have been read. -/
def readRows : List Text → ℕ → Except Status (List (LeapRecord α))
  | [], _ => .ok []
  | row :: rows, numrecs =>
      if row.length ≤ 20 then .ok []
      else if row.length < 91 then .error .noLeapSecs
      else if numrecs = arraySize then .error .toolkitError
      else do
        let record ← scanned scanRow row
        let records ← readRows rows (numrecs + 1)
        return record :: records

/-- The time until which the table is trusted: so long after the update, or after the last entry if that
is later or the header has no time. -/
def lastJD (file : LeapFile α) (last : LeapRecord α) : α :=
  if (file.headerStatus = .success ∨ file.headerStatus = .leapSecIgnored) ∧ ¬ file.updateJD < last.jd then
    extend file.updateJD
  else extend last.jd

/-- The first data line.  Without one the buffer still holds the header. -/
def firstRow (file : LeapFile α) : Text := file.rows.head?.getD file.headerRest

def readTable (file : LeapFile α) : Except Status (Table α) :=
  if (firstRow file).length < 91 then .error .noLeapSecs
  else do
    let first ← scanned scanRow (firstRow file)
    let rest ← readRows scanRow file.rows.tail 1
    if file.closes then
      return { first := first, rest := rest
               jdlast := lastJD extend file ((first :: rest).getLast (List.cons_ne_nil _ _)) }
    else throw .toolkitError

variable {extend scanRow}

omit [LT α] [DecidableLT α] in
theorem length_readRows {rows : List Text} {numrecs : ℕ}
    {records : List (LeapRecord α)} (h : readRows scanRow rows numrecs = .ok records)
    (hnumrecs : numrecs ≤ arraySize) : numrecs + records.length ≤ arraySize := by
  induction rows generalizing numrecs records with
  | nil =>
      obtain rfl := Except.ok.inj h
      exact hnumrecs
  | cons row rows ih =>
      unfold readRows at h
      split at h
      · obtain rfl := Except.ok.inj h
        exact hnumrecs
      · split at h
        · exact absurd h (by simp)
        · split at h
          · exact absurd h (by simp)
          · rename_i hfull
            obtain ⟨record, -, h⟩ := except_bind_ok h
            obtain ⟨others, hothers, h⟩ := except_bind_ok h
            obtain rfl := Except.ok.inj h
            have hrest := ih hothers (Nat.lt_of_le_of_ne hnumrecs hfull)
            rw [List.length_cons]
            omega

/-- The arrays have room for what is read. -/
theorem length_readTable {file : LeapFile α} {table : Table α}
    (h : readTable extend scanRow file = .ok table) : table.records.length ≤ arraySize := by
  unfold readTable at h
  split at h
  · exact absurd h (by simp)
  · obtain ⟨first, -, h⟩ := except_bind_ok h
    obtain ⟨rest, hrest, h⟩ := except_bind_ok h
    split at h
    · obtain rfl := Except.ok.inj h
      have hlen := length_readRows hrest (by decide)
      show (first :: rest).length ≤ arraySize
      rw [List.length_cons]
      omega
    · exact absurd h (by rintro ⟨⟩)

omit [LT α] [DecidableLT α] in
/-- A failure to scan or to read on is never called success. -/
theorem scanned_error {row : Text} {e : Status} (h : scanned scanRow row = .error e) :
    e ≠ .success := by
  unfold scanned at h
  cases hrow : scanRow row with
  | none =>
      rw [hrow] at h
      obtain rfl := Except.error.inj h
      exact fun hsame => Status.noConfusion hsame
  | some record =>
      rw [hrow] at h
      exact absurd h (by simp)

theorem except_bind_failed {β γ : Type} {x : Except Status β} {f : β → Except Status γ} {e : Status}
    (h : (x >>= f) = .error e) : x = .error e ∨ ∃ b, x = .ok b ∧ f b = .error e := by
  cases x with
  | error e' => exact Or.inl (congrArg Except.error (Except.error.inj h))
  | ok b => exact Or.inr ⟨b, rfl, h⟩

omit [LT α] [DecidableLT α] in
theorem readRows_error {rows : List Text} {numrecs : ℕ} {e : Status}
    (h : readRows scanRow rows numrecs = .error e) : e ≠ .success := by
  induction rows generalizing numrecs with
  | nil => exact absurd h (by simp [readRows])
  | cons row rows ih =>
      unfold readRows at h
      split at h
      · exact absurd h (by simp)
      · split at h
        · obtain rfl := Except.error.inj h
          exact fun hsame => Status.noConfusion hsame
        · split at h
          · obtain rfl := Except.error.inj h
            exact fun hsame => Status.noConfusion hsame
          · rcases except_bind_failed h with hrow | ⟨record, -, h⟩
            · exact scanned_error hrow
            · rcases except_bind_failed h with hrest | ⟨records, -, h⟩
              · exact ih hrest
              · exact absurd h (by rintro ⟨⟩)

theorem readTable_error {file : LeapFile α} {e : Status}
    (h : readTable extend scanRow file = .error e) : e ≠ .success := by
  unfold readTable at h
  split at h
  · obtain rfl := Except.error.inj h
    exact fun hsame => Status.noConfusion hsame
  · rcases except_bind_failed h with hrow | ⟨first, -, h⟩
    · exact scanned_error hrow
    · rcases except_bind_failed h with hrest | ⟨rest, -, h⟩
      · exact readRows_error hrest
      · split at h
        · exact absurd h (by rintro ⟨⟩)
        · obtain rfl := Except.error.inj h
          exact fun hsame => Status.noConfusion hsame

end Reading

/-! ## Searching it -/

section Searching

variable {α : Type} [LE α] [LT α] [DecidableLE α] [DecidableLT α]

/-- The time lies within the table. -/
def Table.Covers (table : Table α) (jd : α) : Prop := jd < table.jdlast ∧ table.first.jd ≤ jd

instance (table : Table α) (jd : α) : Decidable (table.Covers jd) :=
  inferInstanceAs (Decidable (jd < table.jdlast ∧ table.first.jd ≤ jd))

/-- The cursor after a search. -/
def searchTable (table : Table α) (jd : α) (cntr : ℕ) : ℕ :=
  if table.Covers jd then moveCursor table.keys jd cntr else cntr

omit [LE α] [LT α] [DecidableLE α] [DecidableLT α] in
theorem length_keys (table : Table α) : table.keys.length = table.records.length := List.length_map _

omit [DecidableLE α] [DecidableLT α] in
theorem keys_first {table : Table α} {jd : α} (h : table.Covers jd) :
    ∀ key, table.keys[0]? = some key → key ≤ jd := by
  intro key hkey
  obtain rfl : table.first.jd = key := Option.some.inj hkey
  exact h.2

theorem searchTable_brackets [Std.LawfulOrderLT α] {table : Table α} {jd : α}
    (hcovers : table.Covers jd) {cntr : ℕ} (hpos : 1 ≤ cntr) (hlen : cntr ≤ table.records.length) :
    Brackets table.keys jd (searchTable table jd cntr) := by
  rw [searchTable, if_pos hcovers]
  exact moveCursor_brackets hpos (by rwa [length_keys]) (keys_first hcovers)

/-- A search keeps the cursor in bounds. -/
theorem searchTable_bounds [Std.LawfulOrderLT α] (table : Table α) (jd : α) {cntr : ℕ} (hpos : 1 ≤ cntr)
    (hlen : cntr ≤ table.records.length) :
    1 ≤ searchTable table jd cntr ∧ searchTable table jd cntr ≤ table.records.length := by
  by_cases hcovers : table.Covers jd
  · have hbrackets := searchTable_brackets hcovers hpos hlen
    exact ⟨hbrackets.pos, by rw [← length_keys]; exact hbrackets.le⟩
  · rw [searchTable, if_neg hcovers]
    exact ⟨hpos, hlen⟩

end Searching

/-! ## A call -/

/-- The value of `*leapSec`, by its formula. -/
inductive LeapValue (α : Type) where
  | zero
  | tabulated (leapSeconds : α)
  /-- `leapseconds + slope * (jd - 2400000.5 - baseDay)` -/
  | drifting (leapSeconds slope baseDay jd : α)
  /-- The linear fit between 1961 and 1972. -/
  | earlyFit (jd : α)
  /-- The linear fit from 1972 on. -/
  | lateFit (jd : α)
deriving DecidableEq

structure Answer (α : Type) where
  status : Status
  leapSec : LeapValue α
  lastChangeJD : α
  nextChangeJD : α
  leapStatus : Text
deriving DecidableEq

def linearFit : Text := "LINEARFIT".toList

def zeroLeaps : Text := "ZEROLEAPS".toList

/-- The static variables. -/
structure Statics (α : Type) where
  /-- The table, once `tableread` holds. -/
  table : Option (Table α)
  fileNotFound : Bool
  cntr : ℕ

/-- The static variables of a process that has made no call. -/
def initialStatics (α : Type) : Statics α where
  table := none
  fileNotFound := false
  cntr := 1

/-- A call: what opening the file would answer, and the two parts of the time. -/
structure Call (α : Type) where
  opening : Opening α
  jdUTC : α × α

/-- What a call depends on beside its own data: constants, the arithmetic of doubles, `sscanf`. -/
structure Constants (α : Type) where
  jan1961 : α
  jan1972 : α
  /-- `== 0.0F` -/
  isZero : α → Bool
  /-- `+`, which rounds -/
  add : α → α → α
  /-- `fmod(_, 1.) > .99` -/
  endsDay : α → Bool
  /-- `- 1.0E-6` -/
  lessMicro : α → α
  /-- `+ MAX_PERIOD` -/
  extend : α → α
  scanRow : Text → Option (LeapRecord α)

/-- The one number that is compared.  Late in a day it is set back. -/
def Constants.jdUTCadd {α : Type} (k : Constants α) (call : Call α) : α :=
  let sum := k.add call.jdUTC.1 call.jdUTC.2
  if k.endsDay call.jdUTC.2 then k.lessMicro sum else sum

section Calls

variable {α : Type} [LE α] [LT α] [DecidableLE α] [DecidableLT α] (k : Constants α)

/-- An answer with the outputs as they are set at first. -/
def failure (status : Status) (jd : α) : Answer α where
  status := status
  leapSec := .zero
  lastChangeJD := jd
  nextChangeJD := jd
  leapStatus := []

/-- The answer without a file. -/
def missingAnswer (jd : α) : Answer α :=
  if k.jan1961 ≤ jd then
    { failure .dataFileMissing jd with
      leapSec := if jd < k.jan1972 then .earlyFit jd else .lateFit jd
      leapStatus := linearFit }
  else { failure .dataFileMissing jd with leapStatus := zeroLeaps }

def recordValue (record : LeapRecord α) (jd : α) : LeapValue α :=
  if k.isZero record.slope then .tabulated record.leapSeconds
  else .drifting record.leapSeconds record.slope record.baseDay jd

/-- The answer at a place in the table, or outside the table. -/
def tableAnswer (table : Table α) (status : Status) (jd : α) (cntr : ℕ) : Answer α :=
  if table.Covers jd then
    match table.records[cntr - 1]? with
    | some record =>
        { status := status, leapSec := recordValue k record jd, lastChangeJD := record.jd
          nextChangeJD := table.keys[cntr]?.getD table.jdlast, leapStatus := record.predict }
    | none => failure status jd
  else if jd < table.first.jd then { failure .jdOutOfRange jd with leapStatus := zeroLeaps }
  else { failure .jdOutOfRange jd with leapSec := .lateFit jd, leapStatus := linearFit }

/-- `PGS_TD_LeapSec` -/
def leapSec (call : Call α) (s : Statics α) : Answer α × Statics α :=
  let jd := k.jdUTCadd call
  match s.table with
  | some table =>
      let cntr := searchTable table jd s.cntr
      (tableAnswer k table .success jd cntr, { s with table := some table, cntr := cntr })
  | none =>
      if s.fileNotFound then (missingAnswer k jd, s)
      else
        match call.opening with
        | .missing => (missingAnswer k jd, { s with fileNotFound := true })
        | .unknown => (failure .toolkitError jd, s)
        | .opened file =>
            match readTable k.extend k.scanRow file with
            | .error e => (failure e jd, s)
            | .ok table =>
                -- the status is still the one of the header's time
                let cntr := searchTable table jd s.cntr
                (tableAnswer k table file.headerStatus jd cntr, { s with table := some table, cntr := cntr })

/-! ### The ways a call can go -/

section Ways

variable {k} {call : Call α} {s : Statics α}

theorem leapSec_read {table : Table α} (htable : s.table = some table) :
    leapSec k call s
      = (tableAnswer k table .success (k.jdUTCadd call) (searchTable table (k.jdUTCadd call) s.cntr),
          { s with table := some table, cntr := searchTable table (k.jdUTCadd call) s.cntr }) := by
  unfold leapSec
  rw [htable]

theorem leapSec_missing (htable : s.table = none)
    (hmissing : s.fileNotFound = true ∨ call.opening = .missing) :
    leapSec k call s = (missingAnswer k (k.jdUTCadd call), { s with fileNotFound := true }) := by
  obtain ⟨table, fileNotFound, cntr⟩ := s
  obtain rfl : table = none := htable
  cases fileNotFound with
  | true => rfl
  | false =>
      have hopening : call.opening = .missing := hmissing.resolve_left Bool.false_ne_true
      unfold leapSec
      simp only [hopening, if_neg Bool.false_ne_true]

theorem leapSec_unknown (htable : s.table = none) (hfound : s.fileNotFound = false)
    (hopening : call.opening = .unknown) :
    leapSec k call s = (failure .toolkitError (k.jdUTCadd call), s) := by
  unfold leapSec
  simp only [htable, hfound, hopening, if_neg Bool.false_ne_true]

theorem leapSec_unreadable (htable : s.table = none) (hfound : s.fileNotFound = false)
    {file : LeapFile α} (hopening : call.opening = .opened file) {e : Status}
    (hread : readTable k.extend k.scanRow file = .error e) :
    leapSec k call s = (failure e (k.jdUTCadd call), s) := by
  unfold leapSec
  simp only [htable, hfound, hopening, hread, if_neg Bool.false_ne_true]

theorem leapSec_opened (htable : s.table = none) (hfound : s.fileNotFound = false)
    {file : LeapFile α} (hopening : call.opening = .opened file) {table : Table α}
    (hread : readTable k.extend k.scanRow file = .ok table) :
    leapSec k call s
      = (tableAnswer k table file.headerStatus (k.jdUTCadd call)
            (searchTable table (k.jdUTCadd call) s.cntr),
          { s with table := some table, cntr := searchTable table (k.jdUTCadd call) s.cntr }) := by
  unfold leapSec
  simp only [htable, hfound, hopening, hread, if_neg Bool.false_ne_true]

theorem missingAnswer_status (jd : α) : (missingAnswer k jd).status = .dataFileMissing := by
  unfold missingAnswer
  split <;> rfl

/-- A call answers from a table, just read or read before, or fails and reads none. -/
theorem leapSec_cases (call : Call α) (s : Statics α) :
    (∃ table status, leapSec k call s
        = (tableAnswer k table status (k.jdUTCadd call) (searchTable table (k.jdUTCadd call) s.cntr),
            { s with table := some table, cntr := searchTable table (k.jdUTCadd call) s.cntr }) ∧
        (s.table = some table ∨ (s.table = none ∧ ∃ file, readTable k.extend k.scanRow file = .ok table))) ∨
      (s.table = none ∧ (leapSec k call s).1.status ≠ .success ∧
        ∃ fileNotFound, (leapSec k call s).2 = { s with fileNotFound := fileNotFound }) := by
  cases htable : s.table with
  | some table => exact Or.inl ⟨table, .success, leapSec_read htable, Or.inl rfl⟩
  | none =>
      by_cases hmissing : s.fileNotFound = true ∨ call.opening = .missing
      · rw [leapSec_missing htable hmissing, missingAnswer_status]
        exact Or.inr ⟨rfl, fun hsame => Status.noConfusion hsame, true, by rw [htable]⟩
      · obtain ⟨hnotFound, hnotMissing⟩ := not_or.1 hmissing
        have hfound : s.fileNotFound = false := Bool.not_eq_true _ ▸ hnotFound
        cases hopening : call.opening with
        | missing => exact absurd hopening hnotMissing
        | unknown =>
            rw [leapSec_unknown htable hfound hopening]
            exact Or.inr ⟨rfl, fun hsame => Status.noConfusion hsame, s.fileNotFound, by rw [← htable]⟩
        | opened file =>
            cases hread : readTable k.extend k.scanRow file with
            | error e =>
                rw [leapSec_unreadable htable hfound hopening hread]
                exact Or.inr ⟨rfl, readTable_error hread, s.fileNotFound, by rw [← htable]⟩
            | ok table =>
                exact Or.inl ⟨table, file.headerStatus, leapSec_opened htable hfound hopening hread,
                  Or.inr ⟨rfl, file, hread⟩⟩

end Ways

/-! ## Sequences of calls -/

/-- The answers to a sequence of calls. -/
def answers : List (Call α) → Statics α → List (Answer α)
  | [], _ => []
  | call :: calls, s => (leapSec k call s).1 :: answers calls (leapSec k call s).2

/-- The static variables after a sequence of calls. -/
def after (calls : List (Call α)) (s : Statics α) : Statics α :=
  calls.foldl (fun s call => (leapSec k call s).2) s

/-- The arrays and the cursor are in bounds. -/
structure Safe (s : Statics α) : Prop where
  pos : 1 ≤ s.cntr
  fresh : s.table = none → s.cntr = 1
  bounded : ∀ table, s.table = some table → s.cntr ≤ table.records.length
  fits : ∀ table, s.table = some table → table.records.length ≤ arraySize

omit [LE α] [LT α] [DecidableLE α] [DecidableLT α] in
theorem safe_initial : Safe (initialStatics α) := by
  refine ⟨le_refl 1, fun _ => rfl, ?_, ?_⟩
  · intro table htable
    exact absurd htable (by simp [initialStatics])
  · intro table htable
    exact absurd htable (by simp [initialStatics])

theorem Safe.search [Std.LawfulOrderLT α] {s : Statics α} (h : Safe s) {table : Table α}
    (hcntr : s.cntr ≤ table.records.length) (hfits : table.records.length ≤ arraySize) (jd : α) :
    Safe { s with table := some table, cntr := searchTable table jd s.cntr } := by
  obtain ⟨hpos, hlen⟩ := searchTable_bounds table jd h.pos hcntr
  refine ⟨hpos, fun hnone => absurd hnone (by simp), ?_, ?_⟩
  · intro table' htable
    obtain rfl := Option.some.inj htable
    exact hlen
  · intro table' htable
    obtain rfl := Option.some.inj htable
    exact hfits

omit [LE α] [DecidableLE α] in
/-- The place in the table where a call searches. -/
theorem Safe.cntr_le {s : Statics α} (h : Safe s) {table : Table α}
    (htable : s.table = some table ∨
      (s.table = none ∧ ∃ file, readTable k.extend k.scanRow file = .ok table)) :
    s.cntr ≤ table.records.length ∧ table.records.length ≤ arraySize := by
  rcases htable with htable | ⟨hnone, file, hread⟩
  · exact ⟨h.bounded table htable, h.fits table htable⟩
  · rw [h.fresh hnone]
    exact ⟨Nat.le_add_left _ _, length_readTable hread⟩

theorem Safe.step [Std.LawfulOrderLT α] {s : Statics α} (h : Safe s) (call : Call α) :
    Safe (leapSec k call s).2 := by
  rcases leapSec_cases (k := k) call s with ⟨table, status, hcall, htable⟩ | ⟨hnone, -, found, hstate⟩
  · obtain ⟨hcntr, hfits⟩ := h.cntr_le k htable
    rw [hcall]
    exact h.search hcntr hfits _
  · rw [hstate]
    refine ⟨h.pos, h.fresh, ?_, ?_⟩
    · intro table htable
      exact absurd (hnone.symm.trans htable) (by simp)
    · intro table htable
      exact absurd (hnone.symm.trans htable) (by simp)

/-- Sequences of calls keep it. -/
theorem Safe.after [Std.LawfulOrderLT α] {s : Statics α} (h : Safe s) (calls : List (Call α)) :
    Safe (after k calls s) := by
  induction calls generalizing s with
  | nil => exact h
  | cons call calls ih => exact ih (h.step k call)

/-- **The cursor and the arrays stay in bounds**, whatever is asked and whatever the files hold. -/
theorem safe_run [Std.LawfulOrderLT α] (calls : List (Call α)) : Safe (after k calls (initialStatics α)) :=
  safe_initial.after k calls

/-! ## What an answer says -/

theorem tableAnswer_brackets [Std.LawfulOrderLT α] {table : Table α} {status : Status} {jd : α} {cntr : ℕ}
    (hpos : 1 ≤ cntr) (hlen : cntr ≤ table.records.length)
    (hsuccess : (tableAnswer k table status jd (searchTable table jd cntr)).status = .success) :
    ¬ jd < (tableAnswer k table status jd (searchTable table jd cntr)).lastChangeJD ∧
      ¬ (tableAnswer k table status jd (searchTable table jd cntr)).nextChangeJD ≤ jd := by
  by_cases hcovers : table.Covers jd
  · have hbrackets := searchTable_brackets hcovers hpos hlen
    generalize searchTable table jd cntr = c at hsuccess hbrackets ⊢
    obtain ⟨hcpos, hclen, hbelow, habove⟩ := hbrackets
    rw [length_keys] at hclen
    have hrecord : table.records[c - 1]? = some table.records[c - 1] :=
      List.getElem?_eq_getElem (by omega)
    unfold tableAnswer
    rw [if_pos hcovers, hrecord]
    refine ⟨hbelow _ ?_, ?_⟩
    · rw [Table.keys, List.getElem?_map, hrecord]
      rfl
    · show ¬ table.keys[c]?.getD table.jdlast ≤ jd
      cases hkey : table.keys[c]? with
      | none => exact not_le_of_less hcovers.1
      | some key => exact habove key hkey
  · have hstatus : (tableAnswer k table status jd (searchTable table jd cntr)).status = .jdOutOfRange := by
      unfold tableAnswer
      rw [if_neg hcovers]
      split <;> rfl
    exact absurd (hstatus.symm.trans hsuccess) (by simp)

/-- **A successful answer is in force at the time that is compared**: that time is not before its last
change, nor at its next change or after it. -/
theorem leapSec_brackets [Std.LawfulOrderLT α] (calls : List (Call α)) (call : Call α)
    (hsuccess : (leapSec k call (after k calls (initialStatics α))).1.status = .success) :
    ¬ k.jdUTCadd call < (leapSec k call (after k calls (initialStatics α))).1.lastChangeJD ∧
      ¬ (leapSec k call (after k calls (initialStatics α))).1.nextChangeJD ≤ k.jdUTCadd call := by
  have hsafe := safe_run k calls
  generalize after k calls (initialStatics α) = s at hsuccess hsafe ⊢
  rcases leapSec_cases (k := k) call s with ⟨table, status, hcall, htable⟩ | ⟨-, hfailure, -⟩
  · obtain ⟨hcntr, -⟩ := hsafe.cntr_le k htable
    rw [hcall] at hsuccess ⊢
    exact tableAnswer_brackets k hsafe.pos hcntr hsuccess
  · exact absurd hsuccess hfailure

end Calls

/-! ## A lookup without a cursor -/

section Plain

variable {α : Type} [LinearOrder α] (k : Constants α)

/-- What a process knows of the file. -/
inductive Known (α : Type) where
  | unread
  | missing
  | table (table : Table α)

/-- The place of a time in a table. -/
def place (table : Table α) (jd : α) : ℕ := table.keys.countP fun key => decide (key ≤ jd)

/-- A call, with the table looked through from its start. -/
def plainLeapSec (call : Call α) : Known α → Answer α × Known α
  | .table table =>
      (tableAnswer k table .success (k.jdUTCadd call) (place table (k.jdUTCadd call)), .table table)
  | .missing => (missingAnswer k (k.jdUTCadd call), .missing)
  | .unread =>
      match call.opening with
      | .missing => (missingAnswer k (k.jdUTCadd call), .missing)
      | .unknown => (failure .toolkitError (k.jdUTCadd call), .unread)
      | .opened file =>
          match readTable k.extend k.scanRow file with
          | .error e => (failure e (k.jdUTCadd call), .unread)
          | .ok table =>
              (tableAnswer k table file.headerStatus (k.jdUTCadd call) (place table (k.jdUTCadd call)),
                .table table)

def plainAnswers : List (Call α) → Known α → List (Answer α)
  | [], _ => []
  | call :: calls, known => (plainLeapSec k call known).1 :: plainAnswers calls (plainLeapSec k call known).2

/-- The file of a call, if it can be read, has its records in order. -/
def Sorted (call : Call α) : Prop :=
  ∀ file table, call.opening = .opened file → readTable k.extend k.scanRow file = .ok table →
    table.keys.Pairwise (· ≤ ·)

/-- The static variables hold what is known. -/
inductive Holds : Statics α → Known α → Prop
  | unread : Holds { table := none, fileNotFound := false, cntr := 1 } .unread
  | missing (cntr : ℕ) : Holds { table := none, fileNotFound := true, cntr := cntr } .missing
  | table (table : Table α) (found : Bool) (cntr : ℕ) (hsorted : table.keys.Pairwise (· ≤ ·))
      (hpos : 1 ≤ cntr) (hlen : cntr ≤ table.records.length) :
      Holds { table := some table, fileNotFound := found, cntr := cntr } (.table table)

/-- On a sorted table the search finds the place. -/
theorem tableAnswer_place {table : Table α} (hsorted : table.keys.Pairwise (· ≤ ·)) {cntr : ℕ}
    (hpos : 1 ≤ cntr) (hlen : cntr ≤ table.records.length) (status : Status) (jd : α) :
    tableAnswer k table status jd (searchTable table jd cntr)
      = tableAnswer k table status jd (place table jd) := by
  by_cases hcovers : table.Covers jd
  · have hplace : searchTable table jd cntr = place table jd :=
      (searchTable_brackets hcovers hpos hlen).eq_countP hsorted
    rw [hplace]
  · unfold tableAnswer
    rw [if_neg hcovers, if_neg hcovers]

theorem Holds.search {table : Table α} (hsorted : table.keys.Pairwise (· ≤ ·)) (found : Bool)
    {cntr : ℕ} (hpos : 1 ≤ cntr) (hlen : cntr ≤ table.records.length) (jd : α) :
    Holds { table := some table, fileNotFound := found, cntr := searchTable table jd cntr }
      (.table table) := by
  obtain ⟨hpos', hlen'⟩ := searchTable_bounds table jd hpos hlen
  exact Holds.table table found _ hsorted hpos' hlen'

theorem Holds.step {s : Statics α} {known : Known α} (h : Holds s known) {call : Call α}
    (hsorted : Sorted k call) :
    (leapSec k call s).1 = (plainLeapSec k call known).1 ∧
      Holds (leapSec k call s).2 (plainLeapSec k call known).2 := by
  cases h with
  | table table found cntr htable hpos hlen =>
      rw [leapSec_read rfl]
      exact ⟨tableAnswer_place k htable hpos hlen _ _, Holds.search htable found hpos hlen _⟩
  | missing cntr =>
      rw [leapSec_missing rfl (Or.inl rfl)]
      exact ⟨rfl, Holds.missing cntr⟩
  | unread =>
      unfold plainLeapSec
      cases hopening : call.opening with
      | missing =>
          rw [leapSec_missing rfl (Or.inr hopening)]
          exact ⟨rfl, Holds.missing 1⟩
      | unknown =>
          rw [leapSec_unknown rfl rfl hopening]
          exact ⟨rfl, Holds.unread⟩
      | opened file =>
          cases hread : readTable k.extend k.scanRow file with
          | error e =>
              rw [leapSec_unreadable rfl rfl hopening hread]
              simp only [hread]
              exact ⟨trivial, Holds.unread⟩
          | ok table =>
              have htable := hsorted file table hopening hread
              have hlen : 1 ≤ table.records.length := Nat.le_add_left _ _
              rw [leapSec_opened rfl rfl hopening hread]
              simp only [hread]
              exact ⟨tableAnswer_place k htable (le_refl 1) hlen _ _,
                Holds.search htable false (le_refl 1) hlen _⟩

/-- **The answers are those of a plain lookup**: where the earlier searches ended makes no difference. -/
theorem answers_plain (calls : List (Call α)) (hsorted : ∀ call ∈ calls, Sorted k call) :
    answers k calls (initialStatics α) = plainAnswers k calls .unread := by
  have hrun : ∀ s known, Holds s known → answers k calls s = plainAnswers k calls known := by
    induction calls with
    | nil => exact fun s known _ => rfl
    | cons call calls ih =>
        intro s known h
        obtain ⟨hanswer, hnext⟩ := h.step k (hsorted call List.mem_cons_self)
        show _ :: answers k calls _ = _ :: plainAnswers k calls _
        rw [hanswer, ih (fun c hc => hsorted c (List.mem_cons_of_mem _ hc)) _ _ hnext]
  exact hrun _ _ Holds.unread

end Plain

/-! ### The last two leap seconds -/

/-- Two lines of `leapsec.dat`, up to the newline. -/
def row2015 : Text :=
  " 2015 JUL  1 =JD 2457204.5  TAI-UTC=  36.0000000 S + (MJD - 41317.) X 0.0000000 S   ACTUAL\n".toList

def row2017 : Text :=
  " 2017 JAN  1 =JD 2457754.5  TAI-UTC=  37.0000000 S + (MJD - 41317.) X 0.0000000 S   ACTUAL\n".toList

/-- Times in tenths of a day, and the two lines as they are scanned. -/
def tenths : Constants ℤ where
  jan1961 := 24373005
  jan1972 := 24413175
  isZero := fun slope => decide (slope = 0)
  add := fun day fraction => day + fraction
  endsDay := fun _ => false
  lessMicro := fun jd => jd
  extend := fun jd => jd + 830
  scanRow := fun row =>
    if row = row2015 then some ⟨24572045, 360, 413170, 0, "ACTUAL".toList⟩
    else if row = row2017 then some ⟨24577545, 370, 413170, 0, "ACTUAL".toList⟩
    else none

def twoLeaps : LeapFile ℤ where
  headerStatus := .success
  updateJD := 24612975
  headerRest := "Data from the two lines below, as of".toList
  rows := [row2015, row2017]
  closes := true

def askAt (day fraction : ℤ) : Call ℤ := { opening := .opened twoLeaps, jdUTC := (day, fraction) }

theorem readTable_twoLeaps : readTable tenths.extend tenths.scanRow twoLeaps = .ok
    { first := ⟨24572045, 360, 413170, 0, "ACTUAL".toList⟩
      rest := [⟨24577545, 370, 413170, 0, "ACTUAL".toList⟩], jdlast := 24613805 } := by
  rfl

theorem safe_run_twoLeaps : Safe (after tenths [askAt 24579995 5] (initialStatics ℤ)) :=
  safe_run tenths [askAt 24579995 5]

theorem leapSec_brackets_2016 :
    ¬ tenths.jdUTCadd (askAt 24574995 5) < (leapSec tenths (askAt 24574995 5)
        (after tenths [askAt 24579995 5] (initialStatics ℤ))).1.lastChangeJD ∧
      ¬ (leapSec tenths (askAt 24574995 5)
        (after tenths [askAt 24579995 5] (initialStatics ℤ))).1.nextChangeJD
          ≤ tenths.jdUTCadd (askAt 24574995 5) :=
  leapSec_brackets tenths [askAt 24579995 5] (askAt 24574995 5) (by rfl)

theorem answers_plain_back : answers tenths [askAt 24579995 5, askAt 24574995 5] (initialStatics ℤ)
    = plainAnswers tenths [askAt 24579995 5, askAt 24574995 5] .unread := by
  apply answers_plain
  intro call hcall file table hopening hread
  have hfile : file = twoLeaps := by
    rcases List.mem_cons.1 hcall with rfl | hcall
    · exact (Opening.opened.inj hopening).symm
    · rw [List.mem_singleton.1 hcall] at hopening
      exact (Opening.opened.inj hopening).symm
  rw [hfile, readTable_twoLeaps] at hread
  obtain rfl := Except.ok.inj hread
  decide

end JosfraPge.Toolkit.LeapTable
