import JosfraPge.Foundation.CivilCalendar
import JosfraPge.Foundation.IntLiteral

/-!
# `strftime` and `strptime`

* `readFormat`: the directives `%Y %y %m %d %H %M %S %f` and `%%`, literals, and what else follows
  a `%`;
* `strftime`: years as the C library writes them, without padding, all else with leading zeros;
* `strptime`: each directive's alternatives in the order of Python's regular expression, with
  backtracking, letters in either case, and digits of any script where it has `\d`;
* `strptime_strftime` — what is written with a four-digit year is read back.

Formats with white space or with letters outside ASCII are not covered.
-/

namespace JosfraPge.Foundation.TimeFormat

open JosfraPge.Foundation.LineText
open JosfraPge.Foundation.CivilCalendar
open JosfraPge.Foundation.IntLiteral

/-! ## Formats -/

/-- The parts of a time that formats name. -/
inductive Field where
  | year | shortYear | month | day | hour | minute | second | fraction
deriving DecidableEq

inductive Directive where
  | field (k : Field)
  | literal (c : Char)
  | unknown (c : Char)
deriving DecidableEq

def fieldOf : Char → Option Field
  | 'Y' => some .year
  | 'y' => some .shortYear
  | 'm' => some .month
  | 'd' => some .day
  | 'H' => some .hour
  | 'M' => some .minute
  | 'S' => some .second
  | 'f' => some .fraction
  | _ => none

def directiveOf (c : Char) : Directive :=
  if c = '%' then .literal '%' else (fieldOf c).elim (.unknown c) .field

def readFormat : Text → List Directive
  | '%' :: c :: cs => directiveOf c :: readFormat cs
  | c :: cs => .literal c :: readFormat cs
  | [] => []

/-! ## Writing -/

/-- The last `width` decimal digits of a number. -/
def padDigits : ℕ → ℕ → Text
  | 0, _ => []
  | width + 1, n => Nat.digitChar (n / 10 ^ width % 10) :: padDigits width n

/-- The value a field has in a time. -/
def valueOf (t : DateTime) : Field → ℕ
  | .year => t.date.year
  | .shortYear => t.date.year % 100
  | .month => t.date.month
  | .day => t.date.day
  | .hour => t.hour
  | .minute => t.minute
  | .second => t.second
  | .fraction => t.microsecond

def writeField (t : DateTime) : Field → Text
  | .year => Nat.toDigits 10 t.date.year
  | .fraction => padDigits 6 t.microsecond
  | k => padDigits 2 (valueOf t k)

def writeDirective (t : DateTime) : Directive → Text
  | .field k => writeField t k
  | .literal c => [c]
  | .unknown c => ['%', c]

/-- `t.strftime(format)`. -/
def strftime (format : Text) (t : DateTime) : Text :=
  (readFormat format).flatMap (writeDirective t)

/-! ## Reading -/

/-- The values read so far, with the defaults of `strptime`. -/
structure Fields where
  year : ℕ := 1900
  month : ℕ := 1
  day : ℕ := 1
  hour : ℕ := 0
  minute : ℕ := 0
  second : ℕ := 0
  fraction : ℕ := 0
deriving DecidableEq

def Fields.set (f : Fields) : Field → ℕ → Fields
  | .year, v => { f with year := v }
  | .shortYear, v => { f with year := if v ≤ 68 then 2000 + v else 1900 + v }
  | .month, v => { f with month := v }
  | .day, v => { f with day := v }
  | .hour, v => { f with hour := v }
  | .minute, v => { f with minute := v }
  | .second, v => { f with second := v }
  | .fraction, v => { f with fraction := v }

/-- One way to read a field: its value and the text after it. -/
abbrev Reader := Text → Option (ℕ × Text)

/-- A class of ASCII digits, such as `[1-9]`. -/
def digitIn (lo hi : ℕ) (c : Char) : Option ℕ :=
  if 48 + lo ≤ c.toNat ∧ c.toNat ≤ 48 + hi then some (c.toNat - 48) else none

def single (p : Char → Option ℕ) : Reader
  | c :: cs => (p c).map fun v => (v, cs)
  | [] => none

def pair (p q : Char → Option ℕ) : Reader
  | c :: cs => (p c).bind fun v => (single q cs).map fun w => (10 * v + w.1, w.2)
  | [] => none

/-- Exactly so many digits of a class, after the digits already read. -/
def exactly (p : Char → Option ℕ) : ℕ → ℕ → Reader
  | 0, n, cs => some (n, cs)
  | k + 1, n, c :: cs => (p c).bind fun v => exactly p k (10 * n + v) cs
  | _ + 1, _, [] => none

/-- A fraction of so many digits, as microseconds. -/
def fractionOf (digits : ℕ) : Reader := fun cs =>
  (exactly (digitIn 0 9) digits 0 cs).map fun v => (v.1 * 10 ^ (6 - digits), v.2)

/-- A day below ten after a blank. -/
def blankDay : Reader
  | ' ' :: cs => single (digitIn 1 9) cs
  | _ => none

/-- The alternatives of a directive's regular expression, in order. -/
def alternatives : Field → List Reader
  | .year => [exactly decimalValue 4 0]
  | .shortYear => [pair decimalValue decimalValue]
  | .month => [pair (digitIn 1 1) (digitIn 0 2), pair (digitIn 0 0) (digitIn 1 9),
      single (digitIn 1 9)]
  | .day => [pair (digitIn 3 3) (digitIn 0 1), pair (digitIn 1 2) decimalValue,
      pair (digitIn 0 0) (digitIn 1 9), single (digitIn 1 9), blankDay]
  | .hour => [pair (digitIn 2 2) (digitIn 0 3), pair (digitIn 0 1) decimalValue,
      single decimalValue]
  | .minute => [pair (digitIn 0 5) decimalValue, single decimalValue]
  | .second => [pair (digitIn 6 6) (digitIn 0 1), pair (digitIn 0 5) decimalValue,
      single decimalValue]
  | .fraction => [fractionOf 6, fractionOf 5, fractionOf 4, fractionOf 3, fractionOf 2,
      fractionOf 1]

/-- The first match of a format at the start of a text. -/
def matchFormat : List Directive → Fields → Text → Option (Fields × Text)
  | [], f, cs => some (f, cs)
  | .literal a :: ds, f, c :: cs => if a.toLower = c.toLower then matchFormat ds f cs else none
  | .literal _ :: _, _, [] => none
  | .unknown _ :: _, _, _ => none
  | .field k :: ds, f, cs =>
      (alternatives k).findSome? fun alt => (alt cs).bind fun v => matchFormat ds (f.set k v.1) v.2

/-- The `datetime` constructor, `none` for a `ValueError`. -/
def Fields.toDateTime (f : Fields) : Option DateTime :=
  if h : (1 ≤ f.year ∧ f.year ≤ 9999) ∧ (1 ≤ f.month ∧ f.month ≤ 12) ∧
      (1 ≤ f.day ∧ f.day ≤ daysInMonth f.year f.month) ∧
      f.hour < 24 ∧ f.minute < 60 ∧ f.second < 60 ∧ f.fraction < 1000000 then
    some
      { date :=
          { year := f.year, month := f.month, day := f.day
            year_pos := h.1.1, year_le := h.1.2, month_pos := h.2.1.1, month_le := h.2.1.2
            day_pos := h.2.2.1.1, day_le := h.2.2.1.2 }
        hour := f.hour, minute := f.minute, second := f.second, microsecond := f.fraction
        hour_lt := h.2.2.2.1, minute_lt := h.2.2.2.2.1, second_lt := h.2.2.2.2.2.1
        microsecond_lt := h.2.2.2.2.2.2 }
  else none

/-- `datetime.strptime(s, format)`, `none` for a `ValueError`. -/
def strptime (s : Text) (format : Text) : Option DateTime :=
  match matchFormat (readFormat format) {} s with
  | some (f, []) => f.toDateTime
  | _ => none

/-! ## Digits -/

theorem toNat_digitChar : ∀ d < 10, (Nat.digitChar d).toNat = 48 + d := by decide

theorem decimalValue_digitChar : ∀ d < 10, decimalValue (Nat.digitChar d) = some d := by decide

theorem digitIn_digitChar {lo hi d : ℕ} (hd : d < 10) (hlo : lo ≤ d) (hhi : d ≤ hi) :
    digitIn lo hi (Nat.digitChar d) = some d := by
  rw [digitIn, toNat_digitChar d hd, if_pos (by omega)]
  simp

theorem digitIn_digitChar_none {lo hi d : ℕ} (hd : d < 10) (h : d < lo ∨ hi < d) :
    digitIn lo hi (Nat.digitChar d) = none := by
  rw [digitIn, toNat_digitChar d hd, if_neg (by omega)]

theorem isDigit_digitChar : ∀ d < 10, (Nat.digitChar d).isDigit = true := by decide

theorem isDigit_of_mem_padDigits {width n : ℕ} {c : Char} (h : c ∈ padDigits width n) :
    c.isDigit = true := by
  induction width with
  | zero => exact absurd h (by simp [padDigits])
  | succ width ih =>
      rcases List.mem_cons.1 h with rfl | h
      · exact isDigit_digitChar _ (Nat.mod_lt _ (by omega))
      · exact ih h

theorem length_padDigits (width n : ℕ) : (padDigits width n).length = width := by
  induction width with
  | zero => rfl
  | succ width ih => rw [padDigits, List.length_cons, ih]

/-- A year of four digits is written with four digits. -/
theorem toDigits_year {y : ℕ} (h1 : 1000 ≤ y) (h2 : y ≤ 9999) :
    Nat.toDigits 10 y = padDigits 4 y := by
  rw [Nat.toDigits_of_base_le (by omega) (by omega), Nat.toDigits_of_base_le (by omega) (by omega),
    Nat.toDigits_of_base_le (by omega) (by omega), Nat.toDigits_of_lt_base (by omega)]
  have h3 : y / 1000 % 10 = y / 10 / 10 / 10 := by omega
  have h4 : y / 100 % 10 = y / 10 / 10 % 10 := by omega
  show _ = [Nat.digitChar (y / 1000 % 10), Nat.digitChar (y / 100 % 10),
    Nat.digitChar (y / 10 % 10), Nat.digitChar (y / 1 % 10)]
  rw [h3, h4, Nat.div_one]
  rfl

theorem exactly_padDigits {p : Char → Option ℕ} (hp : ∀ d < 10, p (Nat.digitChar d) = some d)
    (width acc n : ℕ) (rest : Text) :
    exactly p width acc (padDigits width n ++ rest)
      = some (acc * 10 ^ width + n % 10 ^ width, rest) := by
  induction width generalizing acc with
  | zero => simp [exactly, padDigits, Nat.mod_one]
  | succ width ih =>
      rw [padDigits, List.cons_append, exactly, hp _ (Nat.mod_lt _ (by omega)), Option.bind_some, ih]
      have hmod : n % 10 ^ (width + 1) = n / 10 ^ width % 10 * 10 ^ width + n % 10 ^ width := by
        rw [pow_succ, Nat.mod_mul]
        ring
      rw [hmod]
      congr 2
      ring

/-! ## Two-digit fields -/

section TwoDigits

variable {p q : Char → Option ℕ} {v : ℕ} (rest : Text)

theorem pair_hit (hv : v < 100) (hp : p (Nat.digitChar (v / 10)) = some (v / 10))
    (hq : q (Nat.digitChar (v % 10)) = some (v % 10)) :
    pair p q (padDigits 2 v ++ rest) = some (v, rest) := by
  have h1 : v / 10 ^ 1 % 10 = v / 10 := by omega
  have h2 : v / 10 ^ 0 % 10 = v % 10 := by omega
  have hsum : 10 * (v / 10) + v % 10 = v := Nat.div_add_mod v 10
  simp only [padDigits, h1, h2, List.cons_append, List.nil_append, pair, single, hp, hq,
    Option.bind_some, Option.map_some, hsum]

theorem pair_miss (hv : v < 100) (hp : p (Nat.digitChar (v / 10)) = none) :
    pair p q (padDigits 2 v ++ rest) = none := by
  have h1 : v / 10 ^ 1 % 10 = v / 10 := by omega
  simp only [padDigits, h1, List.cons_append, pair, hp, Option.bind_none]

end TwoDigits

theorem first_month {v : ℕ} (h1 : 1 ≤ v) (h2 : v ≤ 12) (rest : Text) :
    (alternatives .month).findSome? (fun alt => alt (padDigits 2 v ++ rest)) = some (v, rest) := by
  by_cases h : 10 ≤ v
  · have hhit : pair (digitIn 1 1) (digitIn 0 2) (padDigits 2 v ++ rest) = some (v, rest) :=
      pair_hit rest (by omega) (digitIn_digitChar (by omega) (by omega) (by omega))
        (digitIn_digitChar (by omega) (by omega) (by omega))
    rw [alternatives, List.findSome?_cons, hhit]
  · have hmiss : pair (digitIn 1 1) (digitIn 0 2) (padDigits 2 v ++ rest) = none :=
      pair_miss rest (by omega) (digitIn_digitChar_none (by omega) (by omega))
    have hhit : pair (digitIn 0 0) (digitIn 1 9) (padDigits 2 v ++ rest) = some (v, rest) :=
      pair_hit rest (by omega) (digitIn_digitChar (by omega) (by omega) (by omega))
        (digitIn_digitChar (by omega) (by omega) (by omega))
    rw [alternatives, List.findSome?_cons, hmiss, List.findSome?_cons, hhit]

theorem first_day {v : ℕ} (h1 : 1 ≤ v) (h2 : v ≤ 31) (rest : Text) :
    (alternatives .day).findSome? (fun alt => alt (padDigits 2 v ++ rest)) = some (v, rest) := by
  by_cases h30 : 30 ≤ v
  · have hhit : pair (digitIn 3 3) (digitIn 0 1) (padDigits 2 v ++ rest) = some (v, rest) :=
      pair_hit rest (by omega) (digitIn_digitChar (by omega) (by omega) (by omega))
        (digitIn_digitChar (by omega) (by omega) (by omega))
    rw [alternatives, List.findSome?_cons, hhit]
  · have hmiss : pair (digitIn 3 3) (digitIn 0 1) (padDigits 2 v ++ rest) = none :=
      pair_miss rest (by omega) (digitIn_digitChar_none (by omega) (by omega))
    rw [alternatives, List.findSome?_cons, hmiss, List.findSome?_cons]
    by_cases h10 : 10 ≤ v
    · have hhit : pair (digitIn 1 2) decimalValue (padDigits 2 v ++ rest) = some (v, rest) :=
        pair_hit rest (by omega) (digitIn_digitChar (by omega) (by omega) (by omega))
          (decimalValue_digitChar _ (by omega))
      rw [hhit]
    · have hmiss' : pair (digitIn 1 2) decimalValue (padDigits 2 v ++ rest) = none :=
        pair_miss rest (by omega) (digitIn_digitChar_none (by omega) (by omega))
      have hhit : pair (digitIn 0 0) (digitIn 1 9) (padDigits 2 v ++ rest) = some (v, rest) :=
        pair_hit rest (by omega) (digitIn_digitChar (by omega) (by omega) (by omega))
          (digitIn_digitChar (by omega) (by omega) (by omega))
      rw [hmiss', List.findSome?_cons, hhit]

theorem first_hour {v : ℕ} (h : v < 24) (rest : Text) :
    (alternatives .hour).findSome? (fun alt => alt (padDigits 2 v ++ rest)) = some (v, rest) := by
  by_cases h20 : 20 ≤ v
  · have hhit : pair (digitIn 2 2) (digitIn 0 3) (padDigits 2 v ++ rest) = some (v, rest) :=
      pair_hit rest (by omega) (digitIn_digitChar (by omega) (by omega) (by omega))
        (digitIn_digitChar (by omega) (by omega) (by omega))
    rw [alternatives, List.findSome?_cons, hhit]
  · have hmiss : pair (digitIn 2 2) (digitIn 0 3) (padDigits 2 v ++ rest) = none :=
      pair_miss rest (by omega) (digitIn_digitChar_none (by omega) (by omega))
    have hhit : pair (digitIn 0 1) decimalValue (padDigits 2 v ++ rest) = some (v, rest) :=
      pair_hit rest (by omega) (digitIn_digitChar (by omega) (by omega) (by omega))
        (decimalValue_digitChar _ (by omega))
    rw [alternatives, List.findSome?_cons, hmiss, List.findSome?_cons, hhit]

theorem pair_sixty {v : ℕ} (h : v < 60) (rest : Text) :
    pair (digitIn 0 5) decimalValue (padDigits 2 v ++ rest) = some (v, rest) :=
  pair_hit rest (by omega) (digitIn_digitChar (by omega) (by omega) (by omega))
    (decimalValue_digitChar _ (by omega))

theorem first_minute {v : ℕ} (h : v < 60) (rest : Text) :
    (alternatives .minute).findSome? (fun alt => alt (padDigits 2 v ++ rest)) = some (v, rest) := by
  rw [alternatives, List.findSome?_cons, pair_sixty h rest]

theorem first_second {v : ℕ} (h : v < 60) (rest : Text) :
    (alternatives .second).findSome? (fun alt => alt (padDigits 2 v ++ rest)) = some (v, rest) := by
  have hmiss : pair (digitIn 6 6) (digitIn 0 1) (padDigits 2 v ++ rest) = none :=
    pair_miss rest (by omega) (digitIn_digitChar_none (by omega) (by omega))
  rw [alternatives, List.findSome?_cons, hmiss, List.findSome?_cons, pair_sixty h rest]

/-! ## Reading back what was written -/

theorem daysInMonth_le (year month : ℕ) : daysInMonth year month ≤ 31 := by
  unfold daysInMonth monthLength
  split_ifs <;> omega

/-- The first alternative that reads a written field reads its value. -/
theorem first_alternative {t : DateTime} (hy : 1000 ≤ t.date.year) (k : Field) (rest : Text) :
    (alternatives k).findSome? (fun alt => alt (writeField t k ++ rest))
      = some (valueOf t k, rest) := by
  have hday := t.date.day_le.trans (daysInMonth_le _ _)
  cases k with
  | year =>
      have hread := exactly_padDigits decimalValue_digitChar 4 0 t.date.year rest
      have hmod : 0 * 10 ^ 4 + t.date.year % 10 ^ 4 = t.date.year := by
        have := t.date.year_le
        omega
      rw [hmod] at hread
      rw [writeField, toDigits_year hy t.date.year_le, alternatives, List.findSome?_cons, hread]
      rfl
  | shortYear =>
      have hhit : pair decimalValue decimalValue (padDigits 2 (t.date.year % 100) ++ rest)
          = some (t.date.year % 100, rest) :=
        pair_hit rest (by omega) (decimalValue_digitChar _ (by omega))
          (decimalValue_digitChar _ (by omega))
      show (alternatives .shortYear).findSome?
        (fun alt => alt (padDigits 2 (t.date.year % 100) ++ rest)) = _
      rw [alternatives, List.findSome?_cons, hhit]
      rfl
  | month => exact first_month t.date.month_pos t.date.month_le rest
  | day => exact first_day t.date.day_pos hday rest
  | hour => exact first_hour t.hour_lt rest
  | minute => exact first_minute t.minute_lt rest
  | second => exact first_second t.second_lt rest
  | fraction =>
      have hdigit : ∀ d < 10, digitIn 0 9 (Nat.digitChar d) = some d :=
        fun d hd => digitIn_digitChar hd (by omega) (by omega)
      have hread := exactly_padDigits hdigit 6 0 t.microsecond rest
      have hmod : 0 * 10 ^ 6 + t.microsecond % 10 ^ 6 = t.microsecond := by
        have := t.microsecond_lt
        omega
      rw [hmod] at hread
      have hsix : fractionOf 6 (padDigits 6 t.microsecond ++ rest) = some (t.microsecond, rest) := by
        rw [fractionOf, hread]
        simp
      rw [writeField, alternatives, List.findSome?_cons, hsix]
      rfl

/-- Once the first alternative leads to a match, no other is tried. -/
theorem findSome?_bind_of_first {α β : Type} {alts : List (Text → Option α)} {cs : Text} {v : α}
    {g : α → Option β} {r : β} (hfirst : alts.findSome? (fun alt => alt cs) = some v)
    (hg : g v = some r) : alts.findSome? (fun alt => (alt cs).bind g) = some r := by
  induction alts with
  | nil => exact absurd hfirst (by simp)
  | cons alt alts ih =>
      rw [List.findSome?_cons] at hfirst ⊢
      cases halt : alt cs with
      | none =>
          rw [halt] at hfirst
          rw [Option.bind_none]
          exact ih hfirst
      | some w =>
          rw [halt] at hfirst
          obtain rfl := Option.some.inj hfirst
          rw [Option.bind_some, hg]

/-- The values a format's fields have in a time. -/
def fieldsOf (t : DateTime) : List Directive → Fields → Fields
  | [], f => f
  | .field k :: ds, f => fieldsOf t ds (f.set k (valueOf t k))
  | .literal _ :: ds, f => fieldsOf t ds f
  | .unknown _ :: ds, f => fieldsOf t ds f

def Known : Directive → Prop
  | .unknown _ => False
  | _ => True

instance : DecidablePred Known
  | .field _ => isTrue trivial
  | .literal _ => isTrue trivial
  | .unknown _ => isFalse id

theorem matchFormat_write {t : DateTime} (hy : 1000 ≤ t.date.year) {ds : List Directive}
    (hds : ∀ d ∈ ds, Known d) (f : Fields) :
    matchFormat ds f (ds.flatMap (writeDirective t)) = some (fieldsOf t ds f, []) := by
  induction ds generalizing f with
  | nil => rfl
  | cons d ds ih =>
      have hrest := ih fun d' hd' => hds d' (List.mem_cons_of_mem _ hd')
      rw [List.flatMap_cons]
      cases d with
      | field k =>
          rw [matchFormat, fieldsOf]
          exact findSome?_bind_of_first (first_alternative hy k _) (hrest _)
      | literal c =>
          show (if c.toLower = c.toLower then _ else _) = _
          rw [if_pos rfl, fieldsOf]
          exact hrest f
      | unknown c => exact absurd (hds _ List.mem_cons_self) id

/-- **What `strftime` writes, `strptime` reads back**: the fields the format names, and the defaults
for the others. -/
theorem strptime_strftime {t : DateTime} (hy : 1000 ≤ t.date.year) {format : Text}
    (hformat : ∀ d ∈ readFormat format, Known d) :
    strptime (strftime format t) format = (fieldsOf t (readFormat format) {}).toDateTime := by
  rw [strptime, strftime, matchFormat_write hy hformat]

/-- A time's own fields make that time. -/
theorem toDateTime_fields (t : DateTime) :
    Fields.toDateTime { year := t.date.year, month := t.date.month, day := t.date.day, hour := t.hour
                        minute := t.minute, second := t.second, fraction := t.microsecond }
      = some t := by
  rw [Fields.toDateTime, dif_pos]
  exact ⟨⟨t.date.year_pos, t.date.year_le⟩, ⟨t.date.month_pos, t.date.month_le⟩,
    ⟨t.date.day_pos, t.date.day_le⟩, t.hour_lt, t.minute_lt, t.second_lt, t.microsecond_lt⟩

end JosfraPge.Foundation.TimeFormat
