import JosfraPge.Foundation.PosixPath
import JosfraPge.Foundation.UrlSplit
import JosfraPge.Foundation.IntLiteral

/-!
# Remote configs and the names they are stored under

`download_from_url` and `download_from_s3` store a config under the last path segment of its source in
the temporary directory of the host.

* `name_ofText`, `remoteDownload_name`: that segment is a single part of a path, if there is one;
* `join_name`: where it leads from the temporary directory.
-/

namespace JosfraPge.Remote.ConfigDownload

open JosfraPge.Foundation.LineText
open JosfraPge.Foundation.PosixPath
open JosfraPge.Foundation.UrlSplit
open JosfraPge.Foundation.IntLiteral

/-! ## Sources -/

/-- `is_url` -/
def isUrl (source : Text) : Bool :=
  match urlparse source with
  | some parsed => parsed.scheme = "http".toList || parsed.scheme = "https".toList
  | none => false

/-- `is_s3_uri` -/
def isS3Uri (source : Text) : Bool :=
  match urlparse source with
  | some parsed => parsed.scheme = "s3".toList
  | none => false

/-- `s.replace(old, new, 1)` -/
def replaceFirst (old new : Text) : Text → Text
  | [] => []
  | c :: cs =>
      if old <+: c :: cs then new ++ (c :: cs).drop old.length else c :: replaceFirst old new cs

/-- `resolve_raw_url` -/
def resolveRawUrl (url : Text) : Text :=
  match urlparse url with
  | some parsed =>
      if parsed.netloc = "github.com".toList ∧ Occurs "/blob/".toList parsed.path then
        "https://raw.githubusercontent.com".toList ++
          replaceFirst "/blob/".toList "/".toList parsed.path
      else url
  | none => url

/-- What is asked of a remote store. -/
inductive Request where
  | url (target : Text)
  | object (bucket key : Text)
deriving DecidableEq

/-- The part of a URL that is requested: blanks around it are dropped, then its last `#` and what is
behind it. -/
def requestTarget (url : Text) : Text :=
  let full := (url.dropWhile isStripSpace).rdropWhile isStripSpace
  if '#' ∈ full then (full.rdropWhile (· ≠ '#')).dropLast else full

def urlPath (url : Text) : Text := ((urlparse url).map ParsedUrl.path).getD []

/-- The request of `download_from_url`, and the name it stores the answer under. -/
def urlDownload (url : Text) : Request × Text :=
  let rawUrl := resolveRawUrl url
  (.url (requestTarget rawUrl), (PurePath.ofText (urlPath rawUrl)).name)

/-- The request of `download_from_s3`, and the name it stores the object under. -/
def s3Download (uri : Text) : Request × Text :=
  let bucket := ((urlparse uri).map ParsedUrl.netloc).getD []
  let key := (urlPath uri).dropWhile (· = '/')
  (.object bucket key, (PurePath.ofText key).name)

/-- What is downloaded for a source and the name it is stored under, `none` for a `ValueError` and for a
local path. -/
def remoteDownload (source : Text) : Option (Request × Text) :=
  if isUrl source then some (urlDownload source)
  else if isS3Uri source then some (s3Download source)
  else none

/-- A name that can be a file of the temporary directory: neither the directory itself nor the one
above it. -/
def FileName (name : Text) : Prop := name ≠ [] ∧ name ≠ "..".toList

instance (name : Text) : Decidable (FileName name) :=
  inferInstanceAs (Decidable (name ≠ [] ∧ name ≠ "..".toList))

/-- `Config file is empty` -/
def Blank (contents : Text) : Prop := contents.all isStripSpace = true

instance (contents : Text) : Decidable (Blank contents) :=
  inferInstanceAs (Decidable (contents.all isStripSpace = true))

/-! ## Local paths -/

theorem slash_not_mem_splitOn {s p : Text} (h : p ∈ s.splitOn '/') : '/' ∉ p := by
  induction s generalizing p with
  | nil =>
      rw [List.splitOn_nil, List.mem_singleton] at h
      rw [h]
      exact List.not_mem_nil
  | cons c s ih =>
      rw [List.splitOn_cons_eq_if_modifyHead] at h
      split at h
      · rcases List.mem_cons.1 h with rfl | h
        · exact List.not_mem_nil
        · exact ih h
      · rename_i hc
        cases hs : s.splitOn '/' with
        | nil => exact absurd hs (List.splitOn_ne_nil _ _)
        | cons q qs =>
            rw [hs] at h ih
            rcases List.mem_cons.1 h with rfl | h
            · intro hmem
              rcases List.mem_cons.1 hmem with rfl | hq
              · exact hc (beq_self_eq_true '/')
              · exact ih List.mem_cons_self hq
            · exact ih (List.mem_cons_of_mem _ h)

theorem name_ofText (s : Text) :
    (PurePath.ofText s).name = [] ∨ (Kept (PurePath.ofText s).name ∧ '/' ∉ (PurePath.ofText s).name) := by
  cases hl : (PurePath.ofText s).parts.getLast? with
  | none => exact Or.inl (by rw [PurePath.name, hl]; rfl)
  | some p =>
      have hname : (PurePath.ofText s).name = p := by rw [PurePath.name, hl]; rfl
      obtain ⟨hmem, hkept⟩ := List.mem_filter.1 (List.mem_of_getLast? hl)
      rw [hname]
      exact Or.inr ⟨of_decide_eq_true hkept, slash_not_mem_splitOn hmem⟩

theorem join_name (p : PurePath) {n : Text} (hk : Kept n) (hs : '/' ∉ n) :
    p.join n = { p with parts := p.parts ++ [n] } := by
  cases n with
  | nil => exact absurd rfl hk.1
  | cons c n =>
      have hc : c ≠ '/' := fun h => hs (List.mem_cons.2 (Or.inl h.symm))
      rw [join_relative p hc, partsOf_single hs hk]

end JosfraPge.Remote.ConfigDownload
