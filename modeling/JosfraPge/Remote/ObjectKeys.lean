import JosfraPge.Remote.ConfigDownload

/-!
# The object an S3 URI names

`download_from_s3` takes the URI apart as a URL and takes the slashes off the front of its path.

* `path_s3Uri`: what is left of a key as the path of its URI;
* `locate_s3Uri`: an S3 URI is always downloaded from its own bucket;
* `fetchesExactly_iff`: which keys are requested as they are.
-/

namespace JosfraPge.Remote.ObjectKeys

open JosfraPge.Foundation.LineText
open JosfraPge.Foundation.UrlSplit
open JosfraPge.Remote.ConfigDownload

/-! ## Where a config is looked for -/

/-- Where `resolve_config_path` looks for a config. -/
inductive Location where
  | remote (r : Request)
  | localPath
  /-- `urlparse` raises a `ValueError`. -/
  | unreadable
deriving DecidableEq

/-- `resolve_config_path`, up to the first request. -/
def locate (source : Text) : Location :=
  if urlparse source = none then .unreadable
  else if isUrl source then .remote (urlDownload source).1
  else if isS3Uri source then .remote (s3Download source).1
  else .localPath

/-- `s3://bucket/key` -/
def s3Uri (bucket key : Text) : Text := "s3://".toList ++ (bucket ++ '/' :: key)

/-- The characters bucket names are made of. -/
def isBucketChar (c : Char) : Bool := c.isAlphanum || c = '.' || c = '-' || c = '_'

def BucketName (bucket : Text) : Prop := ∀ c ∈ bucket, isBucketChar c = true

instance (bucket : Text) : Decidable (BucketName bucket) :=
  inferInstanceAs (Decidable (∀ c ∈ bucket, isBucketChar c = true))

/-- A key that comes through unchanged: without `?`, `#`, tabs and line ends, and not beginning with a
slash. -/
def PlainKey (key : Text) : Prop := (∀ c ∈ key, isPathChar c = true) ∧ ∀ c ∈ key.head?, c ≠ '/'

/-- Every one of the keys is requested as it is, and no two request the same object. -/
def FetchesExactly (bucket : Text) (keys : Set Text) : Prop :=
  (∀ key ∈ keys, locate (s3Uri bucket key) = .remote (.object bucket key)) ∧
    ∀ key ∈ keys, ∀ key' ∈ keys, key ≠ key' →
      locate (s3Uri bucket key) ≠ locate (s3Uri bucket key')

/-! ## Reading the URI -/

theorem toNat_lt_of_isBucketChar {c : Char} (h : isBucketChar c = true) : c.toNat < 128 := by
  have hkinds : (c.isUpper || c.isLower || c.isDigit || c = '.' || c = '-' || c = '_') = true := h
  simp only [Bool.or_eq_true, decide_eq_true_eq] at hkinds
  have hbelow : ∀ {d : Char}, d.val.toNat < 128 → c.val ≤ d.val → c.toNat < 128 :=
    fun hd hle => (UInt32.le_iff_toNat_le.1 hle).trans_lt hd
  rcases hkinds with ((((hupper | hlower) | hdigit) | rfl) | rfl) | rfl
  · have hrange : 'A'.val ≤ c.val ∧ c.val ≤ 'Z'.val := of_decide_eq_true hupper
    exact hbelow (by decide) hrange.2
  · have hrange := (Bool.and_eq_true_iff.1 hlower).2
    exact hbelow (d := 'z') (by decide) (of_decide_eq_true hrange)
  · have hrange := (Bool.and_eq_true_iff.1 hdigit).2
    exact hbelow (d := '9') (by decide) (of_decide_eq_true hrange)
  · decide
  · decide
  · decide

theorem plain_of_isBucketChar : ∀ n < 128, isBucketChar (Char.ofNat n) = true →
    isUrlChar (Char.ofNat n) = true ∧ endsNetloc (Char.ofNat n) = false ∧ Char.ofNat n ≠ '[' ∧
      Char.ofNat n ≠ ']' ∧ foldsToDelimiter (Char.ofNat n) = false := by
  decide

theorem BucketName.plainAuthority {bucket : Text} (h : BucketName bucket) :
    PlainAuthority bucket := by
  intro c hc
  have hplain := plain_of_isBucketChar c.toNat (toNat_lt_of_isBucketChar (h c hc))
  rw [Char.ofNat_toNat] at hplain
  exact hplain (h c hc)

theorem urlparse_s3Uri {bucket : Text} (h : BucketName bucket) (key : Text) :
    ∃ parsed : ParsedUrl, urlparse (s3Uri bucket key) = some parsed ∧
      parsed.scheme = "s3".toList ∧ parsed.netloc = bucket ∧
      parsed.path = beforeQuery ('/' :: key.filter isUrlChar) := by
  have hscheme : PlainScheme "s3".toList := by decide
  exact urlparse_authority hscheme h.plainAuthority key

/-- The key that is requested. -/
def requestedKey (key : Text) : Text :=
  (beforeQuery ('/' :: key.filter isUrlChar)).dropWhile (· = '/')

/-- **An S3 URI is downloaded from its own bucket**, whatever its key is. -/
theorem locate_s3Uri {bucket : Text} (h : BucketName bucket) (key : Text) :
    locate (s3Uri bucket key) = .remote (.object bucket (requestedKey key)) := by
  obtain ⟨parsed, hparse, hscheme, hnetloc, hpath⟩ := urlparse_s3Uri h key
  have hurl : isUrl (s3Uri bucket key) = false := by
    rw [isUrl, hparse]
    show (decide (parsed.scheme = _) || decide (parsed.scheme = _)) = false
    rw [hscheme]
    decide
  have hs3 : isS3Uri (s3Uri bucket key) = true := by
    rw [isS3Uri, hparse]
    exact decide_eq_true hscheme
  have hrequest : (s3Download (s3Uri bucket key)).1 = .object bucket (requestedKey key) := by
    show Request.object (((urlparse (s3Uri bucket key)).map ParsedUrl.netloc).getD [])
      ((urlPath (s3Uri bucket key)).dropWhile (· = '/')) = _
    rw [urlPath, hparse, requestedKey, ← hpath]
    show Request.object parsed.netloc _ = _
    rw [hnetloc]
    rfl
  rw [locate, if_neg (by rw [hparse]; exact Option.some_ne_none _), hurl, if_neg Bool.false_ne_true,
    if_pos hs3, hrequest]

/-! ## Which keys come through -/

theorem slash_beforeQuery (s : Text) : beforeQuery ('/' :: s) = '/' :: beforeQuery s := rfl

/-- **A key is requested as it is when it is plain**, and only then. -/
theorem requestedKey_eq_iff (key : Text) : requestedKey key = key ↔ PlainKey key := by
  rw [requestedKey, slash_beforeQuery, List.dropWhile_cons_of_pos (by rfl)]
  constructor
  · intro h
    constructor
    · intro c hc
      rw [← h] at hc
      exact isPathChar_of_mem_beforeQuery (List.dropWhile_subset _ hc)
    · intro c hc hslash
      have hhead := List.head?_dropWhile_not (· = '/') (beforeQuery (key.filter isUrlChar))
      rw [h, hc] at hhead
      exact absurd hslash (of_decide_eq_false hhead)
  · intro h
    rw [beforeQuery_filter h.1]
    cases hkey : key with
    | nil => rfl
    | cons d ds =>
        have hd : d ≠ '/' := h.2 d (by rw [hkey]; rfl)
        exact List.dropWhile_cons_of_neg (by simpa using hd)

/-- **Exactly which keys are fetched exactly**: those without `?`, `#`, tabs and line ends that do not
begin with a slash. -/
theorem fetchesExactly_iff {bucket : Text} (h : BucketName bucket) (keys : Set Text) :
    FetchesExactly bucket keys ↔ ∀ key ∈ keys, PlainKey key := by
  have hexact : ∀ key, locate (s3Uri bucket key) = .remote (.object bucket key) ↔ PlainKey key := by
    intro key
    rw [← requestedKey_eq_iff, locate_s3Uri h]
    constructor
    · intro heq
      injection heq with hrequest
      injection hrequest
    · intro heq
      rw [heq]
  constructor
  · intro hfetch key hkey
    exact (hexact key).1 (hfetch.1 key hkey)
  · intro hplain
    refine ⟨fun key hkey => (hexact key).2 (hplain key hkey), ?_⟩
    intro key hkey key' hkey' hne heq
    rw [(hexact key).2 (hplain key hkey), (hexact key').2 (hplain key' hkey')] at heq
    injection heq with hrequest
    injection hrequest with _ hsame
    exact hne hsame

/-- Two keys for one object. -/
def queryKeys : Set Text := {"runs/a.config.txt".toList, "runs/a.config.txt?v=2".toList}

theorem fetchesExactly_iff_query :
    FetchesExactly "granules".toList queryKeys ↔ ∀ key ∈ queryKeys, PlainKey key :=
  fetchesExactly_iff (by decide) queryKeys

/-- The second key fetches the object of the first. -/
theorem fetchesExactly_fails_query :
    locate (s3Uri "granules".toList "runs/a.config.txt?v=2".toList)
        = .remote (.object "granules".toList "runs/a.config.txt".toList) ∧
      ¬ FetchesExactly "granules".toList queryKeys := by
  have hlocate : locate (s3Uri "granules".toList "runs/a.config.txt?v=2".toList)
      = .remote (.object "granules".toList "runs/a.config.txt".toList) := by
    decide
  refine ⟨hlocate, ?_⟩
  intro hfetch
  have hexact := hfetch.1 _ (Set.mem_insert_of_mem _ rfl)
  exact absurd (hlocate.symm.trans hexact) (by decide)

end JosfraPge.Remote.ObjectKeys
