import JosfraPge.Foundation.LineText

/-!
# Integer literals as Python's `int()` reads them

`parseInt` accepts surrounding white space, one sign, and decimal digits of any script with single
underscores between them.  Digits are those of Unicode 13 (general category `Nd`), the version of
Python 3.9, given by the code point of each script's zero.
-/

namespace JosfraPge.Foundation.IntLiteral

open JosfraPge.Foundation.LineText

/-- The zeros of the decimal digit ranges of Unicode 13 above ASCII. -/
def foreignZeros : List ℕ :=
  [0x660, 0x6F0, 0x7C0, 0x966, 0x9E6, 0xA66, 0xAE6, 0xB66, 0xBE6, 0xC66, 0xCE6, 0xD66, 0xDE6,
   0xE50, 0xED0, 0xF20, 0x1040, 0x1090, 0x17E0, 0x1810, 0x1946, 0x19D0, 0x1A80, 0x1A90, 0x1B50,
   0x1BB0, 0x1C40, 0x1C50, 0xA620, 0xA8D0, 0xA900, 0xA9D0, 0xA9F0, 0xAA50, 0xABF0, 0xFF10, 0x104A0,
   0x10D30, 0x11066, 0x110F0, 0x11136, 0x111D0, 0x112F0, 0x11450, 0x114D0, 0x11650, 0x116C0,
   0x11730, 0x118E0, 0x11950, 0x11C50, 0x11D50, 0x11DA0, 0x16A60, 0x16B50, 0x1D7CE, 0x1D7D8,
   0x1D7E2, 0x1D7EC, 0x1D7F6, 0x1E140, 0x1E2F0, 0x1E950, 0x1FBF0]

/-- The value of a decimal digit of any script. -/
def decimalValue (c : Char) : Option ℕ :=
  ((0x30 :: foreignZeros).find? fun z => z ≤ c.toNat && c.toNat ≤ z + 9).map (c.toNat - ·)

/-- White space around a literal. -/
def isLiteralSpace (c : Char) : Bool :=
  (9 ≤ c.toNat && c.toNat ≤ 13) || (0x2000 ≤ c.toNat && c.toNat ≤ 0x200A) ||
    [0x20, 0x85, 0xA0, 0x1680, 0x2028, 0x2029, 0x202F, 0x205F, 0x3000].contains c.toNat

/-- White space that `str.strip` removes. -/
def isStripSpace (c : Char) : Bool := isLiteralSpace c || (0x1C ≤ c.toNat && c.toNat ≤ 0x1F)

/-- Digits with single underscores between them; `afterDigit` tells whether the last character was a
digit. -/
def readDigits : Bool → ℕ → Text → Option ℕ
  | afterDigit, n, [] => if afterDigit then some n else none
  | afterDigit, n, c :: cs =>
      if c = '_' then (if afterDigit then readDigits false n cs else none)
      else (decimalValue c).bind fun d => readDigits true (10 * n + d) cs

/-- A sign, if any, and digits. -/
def readSigned : Text → Option ℤ
  | '-' :: cs => (readDigits false 0 cs).map fun n => -(n : ℤ)
  | '+' :: cs => (readDigits false 0 cs).map fun n => (n : ℤ)
  | cs => (readDigits false 0 cs).map fun n => (n : ℤ)

/-- `int(s)`, `none` for a `ValueError`. -/
def parseInt (s : Text) : Option ℤ :=
  readSigned ((s.dropWhile isLiteralSpace).rdropWhile isLiteralSpace)

/-! ## Plain digit strings -/

/-- A non-empty string of ASCII digits. -/
def IsDigits (s : Text) : Prop := s ≠ [] ∧ ∀ c ∈ s, c.isDigit = true

instance (s : Text) : Decidable (IsDigits s) :=
  inferInstanceAs (Decidable (s ≠ [] ∧ ∀ c ∈ s, c.isDigit = true))

theorem isDigit_toNat {c : Char} (h : c.isDigit = true) : 48 ≤ c.toNat ∧ c.toNat ≤ 57 := by
  rw [Char.isDigit, Bool.and_eq_true, decide_eq_true_eq, decide_eq_true_eq] at h
  exact ⟨UInt32.le_iff_toNat_le.1 h.1, UInt32.le_iff_toNat_le.1 h.2⟩

theorem decimalValue_of_isDigit {c : Char} (h : c.isDigit = true) :
    decimalValue c = some (c.toNat - 48) := by
  obtain ⟨h1, h2⟩ := isDigit_toNat h
  rw [decimalValue, List.find?_cons_of_pos]
  · rfl
  · show (decide (0x30 ≤ c.toNat) && decide (c.toNat ≤ 0x30 + 9)) = true
    rw [decide_eq_true h1, decide_eq_true (by omega)]
    rfl

theorem isLiteralSpace_of_isDigit {c : Char} (h : c.isDigit = true) : isLiteralSpace c = false := by
  obtain ⟨h1, h2⟩ := isDigit_toNat h
  simp [isLiteralSpace]
  omega

/-- The number an ASCII digit string denotes in base ten. -/
def digitsValue (s : Text) : ℕ := s.foldl (fun n c => 10 * n + (c.toNat - 48)) 0

theorem readDigits_of_digits {s : Text} (hs : ∀ c ∈ s, c.isDigit = true) (n : ℕ) :
    readDigits true n s = some (s.foldl (fun n c => 10 * n + (c.toNat - 48)) n) := by
  induction s generalizing n with
  | nil => rfl
  | cons c cs ih =>
      have hc := hs c List.mem_cons_self
      have hu : c ≠ '_' := by
        rintro rfl
        exact absurd hc (by decide)
      rw [readDigits, if_neg hu, decimalValue_of_isDigit hc, Option.bind_some,
        ih fun d hd => hs d (List.mem_cons_of_mem _ hd)]
      rfl

/-- **A digit string is read as the number it denotes.** -/
theorem parseInt_digits {s : Text} (h : IsDigits s) : parseInt s = some (digitsValue s : ℤ) := by
  obtain ⟨hne, hs⟩ := h
  cases s with
  | nil => exact absurd rfl hne
  | cons c cs =>
      have hc := hs c List.mem_cons_self
      have hfront : (c :: cs).dropWhile isLiteralSpace = c :: cs := by
        rw [List.dropWhile_cons_of_neg]
        simp [isLiteralSpace_of_isDigit hc]
      have hback : (c :: cs).rdropWhile isLiteralSpace = c :: cs := by
        rw [List.rdropWhile_eq_self_iff]
        intro hl
        simp [isLiteralSpace_of_isDigit (hs _ (List.getLast_mem hl))]
      have hread : readDigits false 0 (c :: cs) = some (digitsValue (c :: cs)) := by
        have hu : c ≠ '_' := by
          rintro rfl
          exact absurd hc (by decide)
        rw [readDigits, if_neg hu, decimalValue_of_isDigit hc, Option.bind_some,
          readDigits_of_digits fun d hd => hs d (List.mem_cons_of_mem _ hd)]
        rfl
      have hm : c ≠ '-' := by
        rintro rfl
        exact absurd hc (by decide)
      have hp : c ≠ '+' := by
        rintro rfl
        exact absurd hc (by decide)
      rw [parseInt, hfront, hback, readSigned, hread]
      · rfl
      · exact fun _ h => hm (List.cons.inj h).1
      · exact fun _ h => hp (List.cons.inj h).1

end JosfraPge.Foundation.IntLiteral
