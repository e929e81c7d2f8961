import JosfraPge.Foundation.TimeFormat

/-!
# Strings with digits and separators in fixed places

A layout says of each place whether a digit or which separator stands there.  A string may stop early.

* `Fills.field`, `Fills.separator`: a string that fills a layout falls into its fields;
* `sscanf`, on strings of digits and separators, with one rule for each conversion;
* `padDigits` and `digitsValue` are inverse, which is what `sprintf` and `sscanf` share.
-/

namespace JosfraPge.Foundation.FixedLayout

open JosfraPge.Foundation.LineText
open JosfraPge.Foundation.IntLiteral
open JosfraPge.Foundation.TimeFormat

/-! ## Digits and numbers -/

theorem foldl_digits (s : Text) (n : ℕ) :
    s.foldl (fun n c => 10 * n + (c.toNat - 48)) n = n * 10 ^ s.length + digitsValue s := by
  induction s generalizing n with
  | nil => simp [digitsValue]
  | cons c cs ih =>
      show cs.foldl _ (10 * n + (c.toNat - 48)) = _ + cs.foldl _ (10 * 0 + (c.toNat - 48))
      rw [ih, ih (10 * 0 + (c.toNat - 48)), List.length_cons, pow_succ]
      ring

theorem digitsValue_cons (c : Char) (s : Text) :
    digitsValue (c :: s) = (c.toNat - 48) * 10 ^ s.length + digitsValue s := by
  show s.foldl _ (10 * 0 + (c.toNat - 48)) = _
  rw [foldl_digits, Nat.mul_zero, Nat.zero_add]

theorem digitsValue_append (s t : Text) :
    digitsValue (s ++ t) = digitsValue s * 10 ^ t.length + digitsValue t := by
  show (s ++ t).foldl _ 0 = _
  rw [List.foldl_append, foldl_digits]
  rfl

theorem digitsValue_lt {s : Text} (hs : ∀ c ∈ s, c.isDigit = true) :
    digitsValue s < 10 ^ s.length := by
  induction s with
  | nil => simp [digitsValue]
  | cons c cs ih =>
      have hc := isDigit_toNat (hs c List.mem_cons_self)
      have hcs := ih fun d hd => hs d (List.mem_cons_of_mem _ hd)
      have hdigit : c.toNat - 48 ≤ 9 := by omega
      rw [digitsValue_cons, List.length_cons, pow_succ]
      calc (c.toNat - 48) * 10 ^ cs.length + digitsValue cs
          < 9 * 10 ^ cs.length + 10 ^ cs.length :=
            Nat.add_lt_add_of_le_of_lt (Nat.mul_le_mul_right _ hdigit) hcs
        _ = 10 ^ cs.length * 10 := by ring

theorem digitsValue_padDigits {width n : ℕ} (h : n < 10 ^ width) :
    digitsValue (padDigits width n) = n := by
  have hmod : ∀ width, digitsValue (padDigits width n) = n % 10 ^ width := by
    intro width
    induction width with
    | zero => simp [padDigits, digitsValue, Nat.mod_one]
    | succ width ih =>
        rw [padDigits, digitsValue_cons, ih, toNat_digitChar _ (Nat.mod_lt _ (by omega)),
          Nat.add_sub_cancel_left, length_padDigits, pow_succ, Nat.mod_mul]
        ring
  rw [hmod, Nat.mod_eq_of_lt h]

/-- The last digits of a number do not depend on those before them. -/
theorem padDigits_add (width a n : ℕ) : padDigits width (a * 10 ^ width + n) = padDigits width n := by
  induction width generalizing a with
  | zero => rfl
  | succ width ih =>
      have hpower : a * 10 ^ (width + 1) + n = a * 10 * 10 ^ width + n := by ring
      have hdigit : (a * 10 * 10 ^ width + n) / 10 ^ width % 10 = n / 10 ^ width % 10 := by
        rw [Nat.mul_comm, Nat.mul_add_div (Nat.pow_pos (by omega))]
        omega
      rw [padDigits, padDigits, hpower, ih, hdigit]

theorem digitChar_sub {c : Char} (h : c.isDigit = true) : Nat.digitChar (c.toNat - 48) = c := by
  have hc := isDigit_toNat h
  apply Char.toNat_inj.1
  rw [toNat_digitChar _ (by omega)]
  omega

theorem padDigits_digitsValue {s : Text} (hs : ∀ c ∈ s, c.isDigit = true) :
    padDigits s.length (digitsValue s) = s := by
  induction s with
  | nil => rfl
  | cons c cs ih =>
      have hc := hs c List.mem_cons_self
      have hcs : ∀ d ∈ cs, d.isDigit = true := fun d hd => hs d (List.mem_cons_of_mem _ hd)
      have hrange := isDigit_toNat hc
      have hlead : ((c.toNat - 48) * 10 ^ cs.length + digitsValue cs) / 10 ^ cs.length % 10
          = c.toNat - 48 := by
        rw [Nat.mul_comm, Nat.mul_add_div (Nat.pow_pos (by omega)),
          Nat.div_eq_of_lt (digitsValue_lt hcs)]
        omega
      rw [List.length_cons, padDigits, digitsValue_cons, hlead, padDigits_add, ih hcs,
        digitChar_sub hc]

/-- `%0<width>u` -/
def zeroPadded (width n : ℕ) : Text :=
  if n < 10 ^ width then padDigits width n else Nat.toDigits 10 n

theorem zeroPadded_eq (width : ℕ) {n : ℕ} (h : n < 10 ^ width) :
    zeroPadded width n = padDigits width n := if_pos h

/-! ## Layouts -/

/-- What may stand in a place. -/
inductive Place
  | digit
  | separator (c : Char)
deriving DecidableEq

def Place.Admits : Place → Char → Prop
  | .digit, c => c.isDigit = true
  | .separator d, c => c = d

/-- The string stands in the first places of the layout. -/
def Fills : List Place → Text → Prop
  | _, [] => True
  | [], _ :: _ => False
  | p :: ps, c :: cs => p.Admits c ∧ Fills ps cs

/-- A field of digits. -/
def digits (width : ℕ) : List Place := List.replicate width .digit

section Fields

variable {ps : List Place} {s : Text}

theorem fills_nil : Fills ps [] := by
  cases ps <;> trivial

theorem Fills.separator {c : Char} (h : Fills (.separator c :: ps) s) (hpos : 0 < s.length) :
    ∃ t, s = c :: t ∧ Fills ps t := by
  cases s with
  | nil => exact absurd hpos (Nat.lt_irrefl 0)
  | cons d t =>
      obtain ⟨rfl, ht⟩ := h
      exact ⟨t, rfl, ht⟩

theorem fills_separator {c : Char} (h : Fills ps s) : Fills (.separator c :: ps) (c :: s) := ⟨rfl, h⟩

theorem fills_digits_append {width : ℕ} (hlen : width ≤ s.length) :
    Fills (digits width ++ ps) s ↔ (∀ c ∈ s.take width, c.isDigit = true) ∧ Fills ps (s.drop width) := by
  induction width generalizing s with
  | zero => simp [digits]
  | succ width ih =>
      cases s with
      | nil => exact absurd hlen (by simp)
      | cons c cs =>
          have hrest := ih (s := cs) (Nat.le_of_succ_le_succ hlen)
          show (c.isDigit = true ∧ Fills (digits width ++ ps) cs) ↔ _
          rw [hrest, List.take_succ_cons, List.drop_succ_cons, List.forall_mem_cons, and_assoc]

/-- A field holds one number. -/
theorem Fills.field {width : ℕ} (h : Fills (digits width ++ ps) s) (hlen : width ≤ s.length) :
    ∃ n < 10 ^ width, ∃ t, s = padDigits width n ++ t ∧ Fills ps t := by
  obtain ⟨hdigits, hrest⟩ := (fills_digits_append hlen).1 h
  have hwidth : (s.take width).length = width := by
    rw [List.length_take, Nat.min_eq_left hlen]
  have hlt := digitsValue_lt hdigits
  have hsame := padDigits_digitsValue hdigits
  rw [hwidth] at hlt hsame
  refine ⟨digitsValue (s.take width), hlt, s.drop width, ?_, hrest⟩
  rw [hsame, List.take_append_drop]

theorem fills_field (width n : ℕ) (h : Fills ps s) :
    Fills (digits width ++ ps) (padDigits width n ++ s) := by
  have hlen := length_padDigits width n
  rw [fills_digits_append (by rw [List.length_append]; omega), List.take_left' hlen,
    List.drop_left' hlen]
  exact ⟨fun c hc => isDigit_of_mem_padDigits hc, h⟩

/-- The last field may stop anywhere. -/
theorem fills_digits_last {width : ℕ} :
    Fills (digits width) s ↔ s.length ≤ width ∧ ∀ c ∈ s, c.isDigit = true := by
  induction s generalizing width with
  | nil => simp [Fills]
  | cons c cs ih =>
      cases width with
      | zero => simp [digits, Fills]
      | succ width =>
          show (c.isDigit = true ∧ Fills (digits width) cs) ↔ _
          rw [ih, List.length_cons, List.forall_mem_cons, Nat.succ_le_succ_iff]
          tauto

end Fields

/-! ## Reading a layout back -/

/-- A conversion of a `sscanf` format, or a character that must match. -/
inductive Conversion
  /-- `%<width>d` -/
  | number (width : ℕ)
  | character (c : Char)
  /-- `%lf`, in units of `10 ^ -scale` -/
  | real (scale : ℕ)

/-- A fraction in units of `10 ^ -scale`. -/
def scaled (scale : ℕ) (fraction : Text) : ℕ :=
  digitsValue ((fraction ++ List.replicate scale '0').take scale)

/-- The digits after a decimal point. -/
def fractionDigits : Text → Text
  | '.' :: cs => cs.takeWhile Char.isDigit
  | _ => []

/-- The values `sscanf` converts before the first mismatch.  White space, signs and exponents are not
read. -/
def sscanf : List Conversion → Text → List ℕ
  | [], _ => []
  | .number width :: format, s =>
      let field := (s.take width).takeWhile Char.isDigit
      if field = [] then [] else digitsValue field :: sscanf format (s.drop field.length)
  | .character c :: format, s => if s.head? = some c then sscanf format s.tail else []
  | .real scale :: format, s =>
      let whole := s.takeWhile Char.isDigit
      let after := s.drop whole.length
      let fraction := fractionDigits after
      let rest := after.drop (if after.head? = some '.' then fraction.length + 1 else 0)
      if whole = [] ∧ fraction = [] then []
      else (digitsValue whole * 10 ^ scale + scaled scale fraction) :: sscanf format rest

theorem digitsValue_zeros (n : ℕ) : digitsValue (List.replicate n '0') = 0 := by
  induction n with
  | zero => rfl
  | succ n ih =>
      rw [List.replicate_succ, digitsValue_cons, ih]
      exact Nat.zero_mul _

/-- Digits that are dropped make a fraction no greater. -/
theorem scaled_take_le {scale k : ℕ} (hk : k ≤ scale) (fraction : Text) :
    scaled scale (fraction.take k) ≤ scaled scale fraction := by
  by_cases hlen : fraction.length ≤ k
  · rw [List.take_of_length_le hlen]
  have htake : (fraction.take k).length = k := by
    rw [List.length_take]
    omega
  -- the two agree in the first `k` places, and the first goes on with zeros
  have hdropped : (fraction.take k ++ List.replicate scale '0').take scale
      = fraction.take k ++ List.replicate (scale - k) '0' := by
    rw [List.take_append, htake, List.take_of_length_le (by omega), List.take_replicate,
      Nat.min_eq_left (by omega)]
  have hwhole : (fraction ++ List.replicate scale '0').take scale
      = fraction.take k ++ ((fraction ++ List.replicate scale '0').take scale).drop k := by
    have hfirst : ((fraction ++ List.replicate scale '0').take scale).take k = fraction.take k := by
      rw [List.take_take, Nat.min_eq_left hk, List.take_append_of_le_length (by omega)]
    rw [← hfirst, List.take_append_drop]
  have hrest : (((fraction ++ List.replicate scale '0').take scale).drop k).length = scale - k := by
    rw [List.length_drop, List.length_take, List.length_append, List.length_replicate]
    omega
  unfold scaled
  rw [hdropped, hwhole, digitsValue_append, digitsValue_append, digitsValue_zeros, hrest,
    List.length_replicate]
  exact Nat.add_le_add_left (Nat.zero_le _) _

section Scanning

variable (format : List Conversion) (rest : Text)

theorem sscanf_number {width n : ℕ} (hwidth : 0 < width) (hn : n < 10 ^ width) :
    sscanf (.number width :: format) (padDigits width n ++ rest) = n :: sscanf format rest := by
  have hlen := length_padDigits width n
  have hfield : ((padDigits width n ++ rest).take width).takeWhile Char.isDigit
      = padDigits width n := by
    rw [List.take_left' hlen, List.takeWhile_eq_self_iff]
    exact fun c hc => isDigit_of_mem_padDigits hc
  have hne : padDigits width n ≠ [] := List.ne_nil_of_length_pos (by omega)
  rw [sscanf, hfield, if_neg hne, digitsValue_padDigits hn, hlen, List.drop_left' hlen]

theorem sscanf_character (c : Char) :
    sscanf (.character c :: format) (c :: rest) = sscanf format rest := if_pos rfl

theorem sscanf_real_whole {scale width n : ℕ} (hwidth : 0 < width) (hn : n < 10 ^ width) :
    sscanf (.real scale :: format) (padDigits width n)
      = (n * 10 ^ scale + scaled scale []) :: sscanf format [] := by
  have hwhole : (padDigits width n).takeWhile Char.isDigit = padDigits width n :=
    List.takeWhile_eq_self_iff.2 fun c hc => isDigit_of_mem_padDigits hc
  have hne : padDigits width n ≠ [] := by
    have hlen := length_padDigits width n
    exact List.ne_nil_of_length_pos (by omega)
  simp only [sscanf, hwhole, List.drop_length, List.head?_nil]
  rw [if_neg (fun h => hne h.1), digitsValue_padDigits hn]
  rfl

theorem sscanf_real_fraction {scale width n : ℕ} {fraction : Text} (hwidth : 0 < width)
    (hn : n < 10 ^ width) (hfraction : ∀ c ∈ fraction, c.isDigit = true) :
    sscanf (.real scale :: format) (padDigits width n ++ '.' :: fraction)
      = (n * 10 ^ scale + scaled scale fraction) :: sscanf format [] := by
  have hwhole : (padDigits width n ++ '.' :: fraction).takeWhile Char.isDigit = padDigits width n := by
    rw [List.takeWhile_append_of_pos fun c hc => isDigit_of_mem_padDigits hc,
      List.takeWhile_cons_of_neg (by decide), List.append_nil]
  have hne : padDigits width n ≠ [] := by
    have hlen := length_padDigits width n
    exact List.ne_nil_of_length_pos (by omega)
  have hdigits : fractionDigits ('.' :: fraction) = fraction := List.takeWhile_eq_self_iff.2 hfraction
  simp only [sscanf, hwhole, List.drop_left, hdigits, List.head?_cons, if_true]
  rw [if_neg (fun h => hne h.1), digitsValue_padDigits hn, List.drop_succ_cons, List.drop_length]

end Scanning

end JosfraPge.Foundation.FixedLayout
