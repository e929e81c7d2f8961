import JosfraPge.Foundation.LineText

/-!
# Splitting URLs, as `urllib.parse.urlparse` does

A URL is split into scheme, authority, path, parameters of the last path segment, query and fragment;
a part that is missing is empty.  The authority itself is only checked for brackets that do not pair and
for characters that look like delimiters once normalised.

* `urlparse_eq`: what is read behind `scheme://`;
* `urlparse_authority`: an authority of ordinary characters, and the path behind it;
* `urlparse_absolute`: an absolute path has no scheme;
* `beforeQuery_filter`, `splitParams_eq_self_iff`: what a path can lose.
-/

namespace JosfraPge.Foundation.UrlSplit

open JosfraPge.Foundation.LineText

structure ParsedUrl where
  scheme : Text
  netloc : Text
  path : Text
  params : Text
  query : Text
  fragment : Text
deriving DecidableEq, Repr

/-- Characters a scheme may hold. -/
def isSchemeChar (c : Char) : Bool :=
  c.isAlphanum || c = '+' || c = '-' || c = '.'

/-- The text before the first `d`, if there is one, and the text after it. -/
def cutAt (d : Char) (s : Text) : Option (Text × Text) :=
  if d ∈ s then some (s.takeWhile (· ≠ d), (s.dropWhile (· ≠ d)).drop 1) else none

/-- The scheme in lower case, and the rest. -/
def splitScheme (url : Text) : Text × Text :=
  match cutAt ':' url with
  | some (c :: before, after) =>
      if (c :: before).all isSchemeChar then ((c :: before).map Char.toLower, after) else ([], url)
  | _ => ([], url)

/-- Characters that end the authority. -/
def endsNetloc (c : Char) : Bool := c = '/' || c = '?' || c = '#'

def splitNetloc : Text → Text × Text
  | '/' :: '/' :: rest =>
      (rest.takeWhile fun c => !endsNetloc c, rest.dropWhile fun c => !endsNetloc c)
  | url => ([], url)

/-- The text before the first `d` and the text after it; without a `d`, the text and nothing. -/
def cutOrAll (d : Char) (s : Text) : Text × Text := (cutAt d s).getD (s, [])

/-- The schemes whose paths have parameters. -/
def usesParams : List Text :=
  ["".toList, "ftp".toList, "hdl".toList, "prospero".toList, "http".toList, "https".toList,
   "shttp".toList, "rtsp".toList, "rtspu".toList, "sip".toList, "sips".toList, "mms".toList,
   "sftp".toList, "tel".toList]

/-- The parameters of the last segment of a path are behind its first `;`. -/
def splitParams (path : Text) : Text × Text :=
  let last := cutOrAll ';' (path.rtakeWhile (· ≠ '/'))
  (path.rdropWhile (· ≠ '/') ++ last.1, last.2)

/-- Control characters and blanks in front are dropped, line ends and tabs everywhere. -/
def cleanUrl (url : Text) : Text :=
  (url.dropWhile fun c => c.toNat ≤ 0x20).filter fun c => c ≠ '\t' && c ≠ '\r' && c ≠ '\n'

/-- Characters outside ASCII that NFKC normalisation turns into a text with one of `/?#@:`. -/
def foldsToDelimiter (c : Char) : Bool :=
  [0x2047, 0x2048, 0x2049, 0x2100, 0x2101, 0x2105, 0x2106, 0x2A74, 0xFE13, 0xFE16, 0xFE55, 0xFE56,
   0xFE5F, 0xFE6B, 0xFF03, 0xFF0F, 0xFF1A, 0xFF1F, 0xFF20].contains c.toNat

/-- `urlparse(url)`, `none` for a `ValueError`. -/
def urlparse (url : Text) : Option ParsedUrl :=
  let (scheme, afterScheme) := splitScheme (cleanUrl url)
  let (netloc, afterNetloc) := splitNetloc afterScheme
  if ('[' ∈ netloc) = (']' ∈ netloc) ∧ netloc.any foldsToDelimiter = false then
    let (beforeFragment, fragment) := cutOrAll '#' afterNetloc
    let (fullPath, query) := cutOrAll '?' beforeFragment
    let (path, params) := if usesParams.contains scheme then splitParams fullPath else (fullPath, [])
    some { scheme := scheme, netloc := netloc, path := path, params := params, query := query
           fragment := fragment }
  else none

example : urlparse "HTTPS://github.com/o/r/blob/main/a;v=1?x#y".toList =
    some { scheme := "https".toList, netloc := "github.com".toList
           path := "/o/r/blob/main/a".toList, params := "v=1".toList, query := "x".toList
           fragment := "y".toList } := by decide

/-! ## Cutting -/

theorem cutAt_append {d : Char} {x : Text} (hx : d ∉ x) (y : Text) :
    cutAt d (x ++ d :: y) = some (x, y) := by
  have hall : ∀ c ∈ x, decide (c ≠ d) = true := fun c hc => decide_eq_true fun h => hx (h ▸ hc)
  have hmem : d ∈ x ++ d :: y := List.mem_append_right _ List.mem_cons_self
  rw [cutAt, if_pos hmem, List.takeWhile_append_of_pos hall, List.dropWhile_append_of_pos hall,
    List.takeWhile_cons_of_neg (by simp), List.dropWhile_cons_of_neg (by simp), List.append_nil]
  rfl

/-- What a cut keeps is the text in front of the first `d`. -/
theorem cutOrAll_fst (d : Char) (s : Text) : (cutOrAll d s).1 = s.takeWhile (· ≠ d) := by
  unfold cutOrAll cutAt
  by_cases hd : d ∈ s
  · rw [if_pos hd]
    rfl
  · rw [if_neg hd]
    symm
    rw [Option.getD_none, List.takeWhile_eq_self_iff]
    exact fun c hc => decide_eq_true fun h => hd (h ▸ hc)

/-! ## Behind a scheme -/

/-- A character that is not dropped wherever it stands. -/
def isUrlChar (c : Char) : Bool := c ≠ '\t' && c ≠ '\r' && c ≠ '\n'

/-- A scheme, in either case. -/
def PlainScheme (scheme : Text) : Prop :=
  scheme ≠ [] ∧ ∀ c ∈ scheme, isSchemeChar c = true ∧ 0x20 < c.toNat

instance (scheme : Text) : Decidable (PlainScheme scheme) :=
  inferInstanceAs (Decidable (scheme ≠ [] ∧ ∀ c ∈ scheme, isSchemeChar c = true ∧ 0x20 < c.toNat))

theorem blank_lt_of_isSchemeChar {c : Char} (h : isSchemeChar c = true) : 0x20 < c.toNat := by
  have hkinds : (c.isUpper || c.isLower || c.isDigit || c = '+' || c = '-' || c = '.') = true := h
  simp only [Bool.or_eq_true, decide_eq_true_eq] at hkinds
  have habove : ∀ {d : Char}, 0x20 < d.val.toNat → d.val ≤ c.val → 0x20 < c.toNat :=
    fun hd hle => hd.trans_le (UInt32.le_iff_toNat_le.1 hle)
  rcases hkinds with ((((hupper | hlower) | hdigit) | rfl) | rfl) | rfl
  · have hrange : 'A'.val ≤ c.val ∧ c.val ≤ 'Z'.val := of_decide_eq_true hupper
    exact habove (by decide) hrange.1
  · have hrange := (Bool.and_eq_true_iff.1 hlower).1
    exact habove (d := 'a') (by decide) (of_decide_eq_true hrange)
  · have hrange := (Bool.and_eq_true_iff.1 hdigit).1
    exact habove (d := '0') (by decide) (of_decide_eq_true hrange)
  · decide
  · decide
  · decide

theorem isSchemeChar_of_toLower {c : Char} (h : isSchemeChar c.toLower = true) :
    isSchemeChar c = true := by
  by_cases hupper : c.isUpper = true
  · have halnum : c.isAlphanum = true := by
      show (c.isUpper || c.isLower || c.isDigit) = true
      rw [hupper]
      rfl
    rw [isSchemeChar, halnum]
    rfl
  · have hsame : c.toLower = c := dif_neg fun hrange => hupper (decide_eq_true hrange)
    rwa [hsame] at h

/-- A text is a scheme when it is one in lower case. -/
theorem plainScheme_of_toLower {scheme : Text} (h : PlainScheme (scheme.map Char.toLower)) :
    PlainScheme scheme := by
  refine ⟨fun hnil => h.1 (by rw [hnil]; rfl), ?_⟩
  intro c hc
  have hchar := isSchemeChar_of_toLower (h.2 _ (List.mem_map_of_mem hc)).1
  exact ⟨hchar, blank_lt_of_isSchemeChar hchar⟩

theorem isUrlChar_of_blank_lt {c : Char} (h : 0x20 < c.toNat) : isUrlChar c = true := by
  have hne : c ≠ '\t' ∧ c ≠ '\r' ∧ c ≠ '\n' := by
    refine ⟨?_, ?_, ?_⟩ <;> intro heq <;> rw [heq] at h <;> exact absurd h (by decide)
  simpa [isUrlChar, and_assoc] using hne

theorem cleanUrl_cons {c : Char} (hc : 0x20 < c.toNat) (s : Text) :
    cleanUrl (c :: s) = c :: s.filter isUrlChar := by
  have hdrop : (c :: s).dropWhile (fun c => decide (c.toNat ≤ 0x20)) = c :: s :=
    List.dropWhile_cons_of_neg (by simpa using hc)
  have hkeep : isUrlChar c = true := isUrlChar_of_blank_lt hc
  show ((c :: s).dropWhile fun c => decide (c.toNat ≤ 0x20)).filter isUrlChar = _
  rw [hdrop, List.filter_cons, if_pos hkeep]

theorem colon_not_mem_scheme {scheme : Text} (h : PlainScheme scheme) : ':' ∉ scheme :=
  fun hmem => absurd (h.2 _ hmem).1 (by decide)

theorem splitScheme_append {scheme : Text} (h : PlainScheme scheme) (s : Text) :
    splitScheme (scheme ++ ':' :: s) = (scheme.map Char.toLower, s) := by
  have hcut := cutAt_append (colon_not_mem_scheme h) s
  have hall : scheme.all isSchemeChar = true := List.all_eq_true.2 fun c hc => (h.2 c hc).1
  obtain ⟨c, cs, rfl⟩ := List.exists_cons_of_ne_nil h.1
  rw [splitScheme, hcut]
  exact if_pos hall

/-- The authority behind `scheme://`. -/
def authority (s : Text) : Text := (s.filter isUrlChar).takeWhile fun c => !endsNetloc c

/-- What follows the authority. -/
def afterAuthority (s : Text) : Text := (s.filter isUrlChar).dropWhile fun c => !endsNetloc c

/-- The path at the start of what follows the authority. -/
def pathOf (scheme s : Text) : Text :=
  if usesParams.contains scheme then (splitParams ((s.takeWhile (· ≠ '#')).takeWhile (· ≠ '?'))).1
  else (s.takeWhile (· ≠ '#')).takeWhile (· ≠ '?')

theorem cleanUrl_scheme {scheme : Text} (h : PlainScheme scheme) (s : Text) :
    cleanUrl (scheme ++ (':' :: '/' :: '/' :: s))
      = scheme ++ (':' :: '/' :: '/' :: s.filter isUrlChar) := by
  have hkeep : scheme.filter isUrlChar = scheme :=
    List.filter_eq_self.2 fun c hc => isUrlChar_of_blank_lt (h.2 c hc).2
  obtain ⟨c, cs, hscheme⟩ := List.exists_cons_of_ne_nil h.1
  have hc : 0x20 < c.toNat := (h.2 c (hscheme ▸ List.mem_cons_self)).2
  have hfilter : (c :: (cs ++ (':' :: '/' :: '/' :: s))).filter isUrlChar
      = scheme ++ (':' :: '/' :: '/' :: s.filter isUrlChar) := by
    rw [← List.cons_append, ← hscheme, List.filter_append, hkeep]
    rfl
  rw [hscheme, List.cons_append, cleanUrl_cons hc, ← hscheme, ← hfilter, List.filter_cons,
    if_pos (isUrlChar_of_blank_lt hc)]

/-- The authority can be read. -/
def ReadableAuthority (netloc : Text) : Prop :=
  ('[' ∈ netloc) = (']' ∈ netloc) ∧ netloc.any foldsToDelimiter = false

/-- **What is read behind `scheme://`.** -/
theorem urlparse_eq {scheme : Text} (h : PlainScheme scheme) (s : Text) :
    ∃ parsed : ParsedUrl, parsed.scheme = scheme.map Char.toLower ∧ parsed.netloc = authority s ∧
      parsed.path = pathOf (scheme.map Char.toLower) (afterAuthority s) ∧
      (ReadableAuthority (authority s) →
        urlparse (scheme ++ (':' :: '/' :: '/' :: s)) = some parsed) ∧
      (¬ ReadableAuthority (authority s) → urlparse (scheme ++ (':' :: '/' :: '/' :: s)) = none) := by
  let beforeFragment := (cutOrAll '#' (afterAuthority s)).1
  let fullPath := (cutOrAll '?' beforeFragment).1
  let lower := scheme.map Char.toLower
  let parts := if usesParams.contains lower then splitParams fullPath else (fullPath, [])
  have hpath : parts.1 = pathOf lower (afterAuthority s) := by
    show (if usesParams.contains lower then splitParams fullPath else (fullPath, [])).1 = _
    unfold pathOf fullPath beforeFragment
    rw [cutOrAll_fst, cutOrAll_fst]
    split <;> rfl
  refine ⟨{ scheme := lower, netloc := authority s, path := parts.1, params := parts.2
            query := (cutOrAll '?' beforeFragment).2
            fragment := (cutOrAll '#' (afterAuthority s)).2 }, rfl, rfl, hpath, ?_, ?_⟩
  · intro hread
    unfold urlparse
    rw [cleanUrl_scheme h, splitScheme_append h]
    exact if_pos hread
  · intro hread
    unfold urlparse
    rw [cleanUrl_scheme h, splitScheme_append h]
    exact if_neg hread

/-! ## Ordinary authorities -/

/-- An authority of characters that are neither dropped nor special. -/
def PlainAuthority (netloc : Text) : Prop :=
  ∀ c ∈ netloc, isUrlChar c = true ∧ endsNetloc c = false ∧ c ≠ '[' ∧ c ≠ ']' ∧
    foldsToDelimiter c = false

instance (netloc : Text) : Decidable (PlainAuthority netloc) :=
  inferInstanceAs (Decidable (∀ c ∈ netloc, isUrlChar c = true ∧ endsNetloc c = false ∧ c ≠ '[' ∧
    c ≠ ']' ∧ foldsToDelimiter c = false))

section Authorities

variable {netloc : Text}

theorem PlainAuthority.filter_append (h : PlainAuthority netloc) (s : Text) :
    (netloc ++ s).filter isUrlChar = netloc ++ s.filter isUrlChar := by
  rw [List.filter_append, List.filter_eq_self.2 fun c hc => (h c hc).1]

theorem PlainAuthority.continues (h : PlainAuthority netloc) :
    ∀ c ∈ netloc, (!endsNetloc c) = true := by
  intro c hc
  rw [(h c hc).2.1]
  rfl

/-- An ordinary start of the authority stays its start. -/
theorem authority_append (h : PlainAuthority netloc) (s : Text) :
    authority (netloc ++ s) = netloc ++ authority s := by
  rw [authority, h.filter_append, List.takeWhile_append_of_pos h.continues, authority]

theorem afterAuthority_append (h : PlainAuthority netloc) (s : Text) :
    afterAuthority (netloc ++ s) = afterAuthority s := by
  rw [afterAuthority, h.filter_append, List.dropWhile_append_of_pos h.continues, afterAuthority]

theorem PlainAuthority.readable (h : PlainAuthority netloc) : ReadableAuthority netloc := by
  have hopen : '[' ∉ netloc := fun hmem => (h _ hmem).2.2.1 rfl
  have hclose : ']' ∉ netloc := fun hmem => (h _ hmem).2.2.2.1 rfl
  refine ⟨by rw [eq_false hopen, eq_false hclose], ?_⟩
  rw [List.any_eq_false]
  intro c hc
  rw [(h c hc).2.2.2.2]
  exact Bool.false_ne_true

/-- **An ordinary authority is read as it stands, and the path begins with the slash behind it.** -/
theorem urlparse_authority {scheme : Text} (hs : PlainScheme scheme) (h : PlainAuthority netloc)
    (s : Text) :
    ∃ parsed : ParsedUrl,
      urlparse (scheme ++ (':' :: '/' :: '/' :: (netloc ++ '/' :: s))) = some parsed ∧
      parsed.scheme = scheme.map Char.toLower ∧ parsed.netloc = netloc ∧
      parsed.path = pathOf (scheme.map Char.toLower) ('/' :: s.filter isUrlChar) := by
  obtain ⟨parsed, hscheme, hnetloc, hpath, hok, -⟩ := urlparse_eq hs (netloc ++ '/' :: s)
  have hauthority : authority (netloc ++ '/' :: s) = netloc := by
    rw [authority_append h]
    exact List.append_nil netloc
  have hafter : afterAuthority (netloc ++ '/' :: s) = '/' :: s.filter isUrlChar := by
    rw [afterAuthority_append h]
    rfl
  rw [hauthority] at hnetloc hok
  rw [hafter] at hpath
  exact ⟨parsed, hok h.readable, hscheme, hnetloc, hpath⟩

end Authorities

/-! ## Absolute paths -/

theorem splitScheme_slash (s : Text) : splitScheme ('/' :: s) = ([], '/' :: s) := by
  have hscheme : ∀ cs, ('/' :: cs).all isSchemeChar = false := fun cs => rfl
  unfold splitScheme cutAt
  by_cases hcolon : ':' ∈ '/' :: s
  · rw [if_pos hcolon, List.takeWhile_cons_of_pos (by decide)]
    show (if ('/' :: s.takeWhile (· ≠ ':')).all isSchemeChar = true then _ else _) = _
    rw [hscheme, if_neg Bool.false_ne_true]
  · rw [if_neg hcolon]

/-- An absolute path has no scheme, and is always read. -/
theorem urlparse_absolute {s : Text} (hs : ∀ c ∈ s, isUrlChar c = true)
    (hhead : ∀ c ∈ s.head?, c ≠ '/') :
    ∃ parsed : ParsedUrl, urlparse ('/' :: s) = some parsed ∧ parsed.scheme = [] := by
  have hclean : cleanUrl ('/' :: s) = '/' :: s := by
    rw [cleanUrl_cons (by decide), List.filter_eq_self.2 hs]
  have hnetloc : splitNetloc ('/' :: s) = ([], '/' :: s) := by
    cases s with
    | nil => rfl
    | cons c s =>
        have hc : c ≠ '/' := hhead c rfl
        simp [splitNetloc, hc]
  unfold urlparse
  rw [hclean, splitScheme_slash]
  simp only [hnetloc]
  exact ⟨_, if_pos ⟨by simp, rfl⟩, rfl⟩

/-! ## What a path can lose -/

/-- A character that is part of a path wherever it stands. -/
def isPathChar (c : Char) : Bool := isUrlChar c && c ≠ '#' && c ≠ '?'

/-- The text in front of the query and the fragment. -/
def beforeQuery (s : Text) : Text := (s.takeWhile (· ≠ '#')).takeWhile (· ≠ '?')

theorem isPathChar_of_mem_beforeQuery {s : Text} {c : Char}
    (h : c ∈ beforeQuery (s.filter isUrlChar)) : isPathChar c = true := by
  have hq := List.mem_takeWhile_imp h
  have h' := List.takeWhile_subset _ h
  have hf := List.mem_takeWhile_imp h'
  have hu := (List.mem_filter.1 (List.takeWhile_subset _ h')).2
  rw [isPathChar, hu, hf, hq]
  rfl

/-- Path characters are all kept. -/
theorem beforeQuery_filter {s : Text} (h : ∀ c ∈ s, isPathChar c = true) :
    beforeQuery (s.filter isUrlChar) = s := by
  have hparts : ∀ c ∈ s, isUrlChar c = true ∧ decide (c ≠ '#') = true ∧ decide (c ≠ '?') = true := by
    intro c hc
    have hpath := h c hc
    rw [isPathChar, Bool.and_eq_true, Bool.and_eq_true] at hpath
    exact ⟨hpath.1.1, hpath.1.2, hpath.2⟩
  rw [List.filter_eq_self.2 fun c hc => (hparts c hc).1, beforeQuery,
    List.takeWhile_eq_self_iff.2 fun c hc => (hparts c hc).2.1,
    List.takeWhile_eq_self_iff.2 fun c hc => (hparts c hc).2.2]

theorem splitParams_fst (path : Text) : (splitParams path).1
    = path.rdropWhile (· ≠ '/') ++ (path.rtakeWhile (· ≠ '/')).takeWhile (· ≠ ';') := by
  show path.rdropWhile (· ≠ '/') ++ (cutOrAll ';' (path.rtakeWhile (· ≠ '/'))).1 = _
  rw [cutOrAll_fst]

theorem splitParams_prefix (path : Text) : (splitParams path).1 <+: path := by
  have hsplit : path.rdropWhile (· ≠ '/') ++ path.rtakeWhile (· ≠ '/') = path :=
    List.rdropWhile_append_rtakeWhile
  rw [splitParams_fst]
  conv_rhs => rw [← hsplit]
  exact (List.prefix_append_right_inj _).2 (List.takeWhile_prefix _)

/-- A path keeps its length exactly when its last segment has no parameters. -/
theorem splitParams_eq_self_iff (path : Text) :
    (splitParams path).1 = path ↔ ';' ∉ path.rtakeWhile (· ≠ '/') := by
  have hsplit : path.rdropWhile (· ≠ '/') ++ path.rtakeWhile (· ≠ '/') = path :=
    List.rdropWhile_append_rtakeWhile
  rw [splitParams_fst]
  constructor
  · intro h hmem
    have hkeep := List.append_cancel_left (h.trans hsplit.symm)
    rw [List.takeWhile_eq_self_iff] at hkeep
    exact absurd (hkeep _ hmem) (by decide)
  · intro h
    have hkeep : (path.rtakeWhile (· ≠ '/')).takeWhile (· ≠ ';') = path.rtakeWhile (· ≠ '/') := by
      rw [List.takeWhile_eq_self_iff]
      exact fun c hc => decide_eq_true fun heq => h (heq ▸ hc)
    rw [hkeep, hsplit]

end JosfraPge.Foundation.UrlSplit
