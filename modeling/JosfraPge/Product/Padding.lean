import JosfraPge.Foundation.Redraw
import JosfraPge.Product.NamingConvention

/-!
# The random padding of a product

The length of a product's random string is drawn from a normal distribution, again until it lies within
the operational range, and uniformly within it after ten draws outside.  The floating point behind a
draw is left open: a draw is any rational number.

* `randomPaddingLength_cases`: which draw gives the length;
* `run_main_padding`: what every completed product carries.
-/

namespace JosfraPge.Product.Padding

open JosfraPge.Foundation.LineText
open JosfraPge.Foundation.CivilCalendar
open JosfraPge.Foundation.RunRules
open JosfraPge.Foundation.Redraw
open JosfraPge.Foundation.XmlTree
open JosfraPge.Foundation.PosixPath
open JosfraPge.Product.OutputNames
open JosfraPge.Product.CasMetadata
open JosfraPge.Product.OpenDataset
open JosfraPge.Product.ProductRun
open JosfraPge.Product.Orphans
open JosfraPge.Product.NamingConvention

/-! ## The source of randomness -/

/-- The module `random` over a state of its generator. -/
structure Random (σ : Type) where
  gauss : (mean stdev : ℤ) → σ → ℚ × σ
  randint : (low high : ℤ) → σ → ℤ × σ
  /-- The index `choices` draws for one element of a population of some size. -/
  index : (size : ℕ) → σ → ℕ × σ
  randint_mem : ∀ low high s, low ≤ high → low ≤ (randint low high s).1 ∧ (randint low high s).1 ≤ high
  index_lt : ∀ size s, 0 < size → (index size s).1 < size

/-- `NC_SIZE_MEAN_BYTES` -/
def ncSizeMeanBytes : ℤ := 13311048

/-- `NC_SIZE_STDEV_BYTES` -/
def ncSizeStdevBytes : ℤ := 1020000

/-- `NC_SIZE_MIN_BYTES` -/
def ncSizeMinBytes : ℤ := 12039086

/-- `NC_SIZE_MAX_BYTES` -/
def ncSizeMaxBytes : ℤ := 15508331

/-- `NC_SIZE_DRAW_ATTEMPTS` -/
def ncSizeDrawAttempts : ℕ := 10

/-- `int(x)` of a number: towards zero. -/
def truncate (x : ℚ) : ℤ := if 0 ≤ x then ⌊x⌋ else ⌈x⌉

/-- `string.ascii_letters + string.digits` -/
def alphabet : Text := "abcdefghijklmnopqrstuvwxyzABCDEFGHIJKLMNOPQRSTUVWXYZ0123456789".toList

/-- A length within the range of the operational granules. -/
def InRange (length : ℤ) : Prop := ncSizeMinBytes ≤ length ∧ length ≤ ncSizeMaxBytes

instance : DecidablePred InRange := fun length =>
  inferInstanceAs (Decidable (ncSizeMinBytes ≤ length ∧ length ≤ ncSizeMaxBytes))

section Drawing

variable {σ : Type} (random : Random σ)

/-- `int(random.gauss(NC_SIZE_MEAN_BYTES, NC_SIZE_STDEV_BYTES))` -/
def drawLength (s : σ) : ℤ × σ :=
  (truncate (random.gauss ncSizeMeanBytes ncSizeStdevBytes s).1,
    (random.gauss ncSizeMeanBytes ncSizeStdevBytes s).2)

/-- `random.randint(NC_SIZE_MIN_BYTES, NC_SIZE_MAX_BYTES)` -/
def drawUniform (s : σ) : ℤ × σ := random.randint ncSizeMinBytes ncSizeMaxBytes s

/-- `random_padding_length` -/
def randomPaddingLength (s : σ) : ℤ × σ :=
  redraw (drawLength random) (drawUniform random) InRange ncSizeDrawAttempts s

/-- One element of `random.choices(alphabet, k=length)`. -/
def drawCharacter (s : σ) : Char × σ :=
  (alphabet.getD (random.index alphabet.length s).1 'a', (random.index alphabet.length s).2)

/-- `generate_random_string` -/
def generateRandomString (length : ℤ) (s : σ) : Text × σ :=
  draws (drawCharacter random) length.toNat s

/-- `generate_random_string(random_padding_length())` -/
def paddingString (s : σ) : Text × σ :=
  generateRandomString random (randomPaddingLength random s).1 (randomPaddingLength random s).2

/-! ## The length -/

theorem inRange_drawUniform (s : σ) : InRange (drawUniform random s).1 :=
  random.randint_mem ncSizeMinBytes ncSizeMaxBytes s (by decide)

/-- **Which draw gives the length**: the first of ten within the range, none of the ten before it being
moved to a bound, or the uniform one. -/
theorem randomPaddingLength_cases (s : σ) :
    (∃ k < ncSizeDrawAttempts, InRange (drawAt (drawLength random) s k) ∧
        (∀ m < k, ¬ InRange (drawAt (drawLength random) s m)) ∧
        (randomPaddingLength random s).1 = drawAt (drawLength random) s k) ∨
      ((∀ m < ncSizeDrawAttempts, ¬ InRange (drawAt (drawLength random) s m)) ∧
        (randomPaddingLength random s).1
          = (drawUniform random (stateAfter (drawLength random) s ncSizeDrawAttempts)).1) := by
  have hcases := redraw_cases (drawLength random) (drawUniform random) InRange ncSizeDrawAttempts s
  rcases hcases with ⟨k, hk, haccept, hrejected, hresult⟩ | ⟨hrejected, hresult⟩
  · exact Or.inl ⟨k, hk, haccept, hrejected, congrArg Prod.fst hresult⟩
  · exact Or.inr ⟨hrejected, congrArg Prod.fst hresult⟩

theorem inRange_randomPaddingLength (s : σ) : InRange (randomPaddingLength random s).1 := by
  have hcases := redraw_cases (drawLength random) (drawUniform random) InRange ncSizeDrawAttempts s
  unfold randomPaddingLength
  rcases hcases with ⟨k, -, haccept, -, hresult⟩ | ⟨-, hresult⟩
  · rw [hresult]
    exact haccept
  · rw [hresult]
    exact inRange_drawUniform random _

/-! ## The string -/

theorem alphabet_isAlphanum : ∀ c ∈ alphabet, c.isAlphanum = true := by
  decide

theorem isAlphanum_drawCharacter (s : σ) : (drawCharacter random s).1.isAlphanum = true := by
  have hlt : (random.index alphabet.length s).1 < alphabet.length :=
    random.index_lt alphabet.length s (by decide)
  have hmem : alphabet.getD (random.index alphabet.length s).1 'a' ∈ alphabet := by
    rw [List.getD_eq_getElem?_getD, List.getElem?_eq_getElem hlt]
    exact List.getElem_mem hlt
  exact alphabet_isAlphanum _ hmem

/-- A text of letters and digits, as long as operational granules are large. -/
structure PlausiblePadding (r : Text) : Prop where
  atLeast : 12039086 ≤ r.length
  atMost : r.length ≤ 15508331
  alphanumeric : ∀ c ∈ r, c.isAlphanum = true

theorem plausiblePadding (s : σ) : PlausiblePadding (paddingString random s).1 := by
  obtain ⟨hlow, hhigh⟩ := inRange_randomPaddingLength random s
  unfold ncSizeMinBytes at hlow
  unfold ncSizeMaxBytes at hhigh
  obtain ⟨hlength, hall⟩ := draws_spec (drawCharacter random)
    (fun c => c.isAlphanum = true) (isAlphanum_drawCharacter random)
    (randomPaddingLength random s).1.toNat (randomPaddingLength random s).2
  have htext : (paddingString random s).1.length = (randomPaddingLength random s).1.toNat := hlength
  exact ⟨by omega, by omega, hall⟩

end Drawing

/-! ## In the product -/

section Product

variable {D σ : Type} {lib : Libraries D} {configContents : Text} {p : DateTime}
  {files files' : Files D}

/-- A run that completes has stored the string it draws. -/
theorem run_main_dataset (hlib : lib.Lawful) {r : Text}
    (h : (main lib configContents p r).run files = .ok ⟨⟩ files') :
    ∃ root b d, loadConfig lib configContents = .ok root ∧ buildOutputBasename root p = .ok b ∧
      files' (ncPath b) = some (.netcdf d) ∧ lib.attr d randomStringName = some (.text r) := by
  obtain ⟨root, start, s, g, v, aux, input, b, d₀, d, m, hload, -, -, hbase, hcreate, hfill, -, rfl⟩ :=
    run_main_inv h
  obtain ⟨t, k, -, hb⟩ := buildOutputBasename_ok_iff.1 hbase
  obtain ⟨n, -, -, hglobals⟩ := run_fillDataset_inv hlib (blankness_of_create hlib hcreate) hfill
  exact ⟨root, b, d, hload, hbase, completeFiles_nc hb d m, hglobals.randomString⟩

/-- **Every completed product carries letters and digits in an operational amount**, whatever the
generator yields and whichever library stores it. -/
theorem run_main_padding (hlib : lib.Lawful) (random : Random σ) (s : σ)
    (h : (main lib configContents p (paddingString random s).1).run files = .ok ⟨⟩ files') :
    ∃ root b d r, loadConfig lib configContents = .ok root ∧ buildOutputBasename root p = .ok b ∧
      files' (ncPath b) = some (.netcdf d) ∧ lib.attr d randomStringName = some (.text r) ∧
      PlausiblePadding r := by
  obtain ⟨root, b, d, hload, hbase, hnc, hr⟩ := run_main_dataset hlib h
  exact ⟨root, b, d, _, hload, hbase, hnc, hr, plausiblePadding random s⟩

end Product

/-! ### A source that never draws within the range -/

/-- Every draw is far too small, the uniform one is the lower bound. -/
def lowRandom : Random PUnit where
  gauss := fun _ _ s => (0, s)
  randint := fun low _ s => (low, s)
  index := fun _ s => (0, s)
  randint_mem := fun low _ _ h => ⟨le_refl low, h⟩
  index_lt := fun _ _ h => h

theorem run_main_padding_low :
    ∃ (files' : Files PlainDataset) (root : Element) (b : Text) (d : PlainDataset) (r : Text),
      loadConfig simpleLibraries (numberedConfig " 144 ") = .ok root ∧
      buildOutputBasename root repeatedReading = .ok b ∧
      files' (ncPath b) = some (.netcdf d) ∧
      simpleLibraries.attr d randomStringName = some (.text r) ∧ PlausiblePadding r := by
  obtain ⟨_, _, _, _, -, -, -, hrun⟩ := run_main_blanks (paddingString lowRandom ⟨⟩).1
  exact ⟨_, run_main_padding lawful_simple lowRandom ⟨⟩ hrun⟩

end JosfraPge.Product.Padding
