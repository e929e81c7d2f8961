import JosfraPge.Remote.ConfigDownload

/-!
# GitHub file views and their raw contents

`resolve_raw_url` looks for the first `/blob/` anywhere in the path of a github.com URL, while the
`blob` of a file view stands behind its owner and repository.

* `replaceFirst_segment`: a search for `/blob/` passes over other segments;
* `rewrite_url_iff`: which file views become the URL of their raw contents;
* `rewrite_other_iff`: which other URLs are left alone;
* `rewrittenCorrectly_iff`: both, for any URL.
-/

namespace JosfraPge.Remote.RawUrl

open JosfraPge.Foundation.LineText
open JosfraPge.Foundation.UrlSplit
open JosfraPge.Remote.ConfigDownload

/-! ## File views -/

/-- A segment of a path. -/
def Segment (s : Text) : Prop := s ≠ [] ∧ '/' ∉ s

instance (s : Text) : Decidable (Segment s) := inferInstanceAs (Decidable (s ≠ [] ∧ '/' ∉ s))

/-- A file of a repository at GitHub. -/
structure FileView where
  owner : Text
  repo : Text
  ref : Text
  path : Text
  owner_segment : Segment owner
  repo_segment : Segment repo
  ref_segment : Segment ref
  path_ne : path ≠ []

def githubHost : Text := "github.com".toList

def rawHost : Text := "raw.githubusercontent.com".toList

def blobMark : Text := "/blob/".toList

namespace FileView

variable (f : FileView)

/-- `/owner/repo/blob/ref/path` -/
def urlPath : Text := '/' :: (f.owner ++ '/' :: (f.repo ++ blobMark ++ (f.ref ++ '/' :: f.path)))

/-- `/owner/repo/ref/path` -/
def rawPath : Text := '/' :: (f.owner ++ '/' :: (f.repo ++ '/' :: (f.ref ++ '/' :: f.path)))

def url : Text := "https://".toList ++ (githubHost ++ f.urlPath)

def rawUrl : Text := "https://".toList ++ (rawHost ++ f.rawPath)

/-- What a file view needs to be rewritten correctly: nothing that is taken for a query, a fragment or
the parameters of the last segment, nothing that is dropped, and no owner `blob` of another repository. -/
structure Rewritable : Prop where
  chars : ∀ c ∈ f.urlPath, isPathChar c = true
  lastSegment : ';' ∉ f.path.rtakeWhile (· ≠ '/')
  owner : f.owner = "blob".toList → f.repo = "blob".toList

end FileView

/-! ## Rewriting -/

/-- `resolve_raw_url`, `none` for a `ValueError`. -/
def rewrite (url : Text) : Option Text := (urlparse url).map fun _ => resolveRawUrl url

/-- A file view becomes the URL of its raw contents, any other URL is left alone. -/
structure RewrittenCorrectly (url : Text) : Prop where
  view : ∀ f : FileView, url = f.url → rewrite url = some f.rawUrl
  other : (∀ f : FileView, url ≠ f.url) → rewrite url = some url

/-- A URL that can be read and whose host is not github.com or whose path holds no `/blob/`. -/
def LeftAlone (url : Text) : Prop :=
  ∃ parsed, urlparse url = some parsed ∧ (parsed.netloc ≠ githubHost ∨ ¬ Occurs blobMark parsed.path)

theorem rewrite_eq {url : Text} {parsed : ParsedUrl} (h : urlparse url = some parsed) :
    rewrite url = some (if parsed.netloc = githubHost ∧ Occurs blobMark parsed.path
      then "https://".toList ++ (rawHost ++ replaceFirst blobMark "/".toList parsed.path)
      else url) := by
  rw [rewrite, h, Option.map_some, resolveRawUrl, h]
  rfl

/-! ### The first `/blob/` -/

section ReplaceFirst

variable {old new : Text}

theorem replaceFirst_skip {c : Char} {cs : Text} (h : ¬ old <+: c :: cs) :
    replaceFirst old new (c :: cs) = c :: replaceFirst old new cs := if_neg h

theorem replaceFirst_hit {cs : Text} (h : old ≠ []) :
    replaceFirst old new (old ++ cs) = new ++ cs := by
  obtain ⟨d, ds, hold⟩ := List.exists_cons_of_ne_nil h
  have hpre : old <+: d :: (ds ++ cs) := by
    rw [← List.cons_append, ← hold]
    exact List.prefix_append _ _
  have hdrop : (d :: (ds ++ cs)).drop old.length = cs := by
    rw [← List.cons_append, ← hold, List.drop_left]
  rw [hold, List.cons_append, ← hold, replaceFirst, if_pos hpre, hdrop]

theorem mem_replaceFirst {c : Char} {s : Text} (h : c ∈ replaceFirst old new s) : c ∈ new ∨ c ∈ s := by
  induction s with
  | nil => exact absurd h List.not_mem_nil
  | cons d ds ih =>
      rw [replaceFirst] at h
      split at h
      · rcases List.mem_append.1 h with h | h
        · exact Or.inl h
        · exact Or.inr (List.mem_of_mem_drop h)
      · rcases List.mem_cons.1 h with rfl | h
        · exact Or.inr List.mem_cons_self
        · exact (ih h).imp_right (List.mem_cons_of_mem _)

theorem length_replaceFirst (new : Text) {s : Text} (hold : old ≠ []) (h : Occurs old s) :
    (replaceFirst old new s).length + old.length = s.length + new.length := by
  induction s with
  | nil => exact absurd (List.infix_nil.1 h) hold
  | cons c cs ih =>
      by_cases hpre : old <+: c :: cs
      · have hle := hpre.length_le
        rw [replaceFirst, if_pos hpre, List.length_append, List.length_drop]
        omega
      · have hrest : Occurs old cs := (List.infix_cons_iff.1 h).resolve_left hpre
        have hlen := ih hrest
        rw [replaceFirst_skip hpre, List.length_cons, List.length_cons]
        omega

end ReplaceFirst

/-- A segment does not start the search's text, unless it is `blob`. -/
theorem eq_blob_of_blobMark {s x : Text} (hs : '/' ∉ s) (h : blobMark <+: '/' :: (s ++ '/' :: x)) :
    s = "blob".toList := by
  obtain ⟨t, ht⟩ := h
  have hsplit : "blob".toList ++ '/' :: t = s ++ '/' :: x := (List.cons.inj ht).2
  exact (append_cons_inj (by decide) hs hsplit).1.symm

theorem replaceFirst_pass (new : Text) {w : Text} (hw : '/' ∉ w) (s : Text) :
    replaceFirst blobMark new (w ++ s) = w ++ replaceFirst blobMark new s := by
  induction w with
  | nil => rfl
  | cons c w ih =>
      have hc : ¬ blobMark <+: c :: (w ++ s) := by
        intro hpre
        have hhead := (List.cons_prefix_cons.1 hpre).1
        exact hw (hhead ▸ List.mem_cons_self)
      rw [List.cons_append, replaceFirst_skip hc, ih fun h => hw (List.mem_cons_of_mem _ h),
        List.cons_append]

/-- **The search passes over a segment that is not `blob`.** -/
theorem replaceFirst_segment (new : Text) {s : Text} (hs : '/' ∉ s) (hne : s ≠ "blob".toList)
    (x : Text) : replaceFirst blobMark new ('/' :: (s ++ '/' :: x))
      = '/' :: (s ++ replaceFirst blobMark new ('/' :: x)) := by
  rw [replaceFirst_skip fun h => hne (eq_blob_of_blobMark hs h), replaceFirst_pass new hs]

theorem replaceFirst_blob (x : Text) :
    replaceFirst blobMark "/".toList ('/' :: ("blob".toList ++ '/' :: x)) = '/' :: x := by
  have hmark : blobMark ≠ [] := by decide
  exact replaceFirst_hit hmark

/-! ## File views -/

namespace FileView

variable (f : FileView)

theorem occurs_blobMark : Occurs blobMark f.urlPath := by
  refine ⟨'/' :: (f.owner ++ '/' :: f.repo), f.ref ++ '/' :: f.path, ?_⟩
  simp only [urlPath, List.append_assoc, List.cons_append]

/-- **The first `/blob/` is the one behind the repository**, unless the owner is called `blob` and the
repository is not. -/
theorem replaceFirst_urlPath_iff : replaceFirst blobMark "/".toList f.urlPath = f.rawPath ↔
    (f.owner = "blob".toList → f.repo = "blob".toList) := by
  have hrepo := f.repo_segment.2
  have hpath : f.urlPath = '/' :: (f.owner ++ '/' :: (f.repo ++ '/' :: ("blob".toList ++ '/' ::
      (f.ref ++ '/' :: f.path)))) := by
    show '/' :: (f.owner ++ '/' :: (f.repo ++ '/' :: ("blob".toList ++ ['/']) ++ _)) = _
    simp only [List.append_assoc, List.cons_append, List.nil_append]
  rw [hpath, rawPath]
  by_cases howner : f.owner = "blob".toList
  · rw [howner, replaceFirst_blob]
    constructor
    · intro h _
      have hsplit := (List.cons.inj h).2
      exact (append_cons_inj hrepo (by decide) hsplit).1
    · intro h
      rw [h rfl]
  · rw [replaceFirst_segment _ f.owner_segment.2 howner]
    by_cases hblob : f.repo = "blob".toList
    · rw [hblob, replaceFirst_blob]
      exact ⟨fun _ h => absurd h howner, fun _ => rfl⟩
    · rw [replaceFirst_segment _ hrepo hblob, replaceFirst_blob]
      exact ⟨fun _ h => absurd h howner, fun _ => rfl⟩

theorem urlparse_url : ∃ parsed : ParsedUrl, urlparse f.url = some parsed ∧
    parsed.netloc = githubHost ∧
    parsed.path = (splitParams (beforeQuery (f.urlPath.filter isUrlChar))).1 := by
  have hscheme : PlainScheme "https".toList := by decide
  have hhost : PlainAuthority githubHost := by decide
  obtain ⟨parsed, hparse, -, hnetloc, hpath⟩ := urlparse_authority hscheme hhost
    (f.owner ++ '/' :: (f.repo ++ blobMark ++ (f.ref ++ '/' :: f.path)))
  exact ⟨parsed, hparse, hnetloc, hpath⟩

theorem mem_urlPath {c : Char} (h : c ∈ f.urlPath) : c ∈ blobMark ∨ c ∈ f.rawPath := by
  simp only [urlPath, rawPath, List.mem_cons, List.mem_append] at h ⊢
  tauto

theorem length_urlPath : f.urlPath.length = f.rawPath.length + 5 := by
  have hmark : blobMark.length = 6 := rfl
  simp only [urlPath, rawPath, List.length_cons, List.length_append, hmark]
  omega

theorem lastSegment_urlPath :
    f.urlPath.rtakeWhile (· ≠ '/') = f.path.rtakeWhile (· ≠ '/') := by
  have hpath : f.urlPath
      = ('/' :: (f.owner ++ '/' :: (f.repo ++ blobMark ++ f.ref))) ++ '/' :: f.path := by
    simp only [urlPath, List.append_assoc, List.cons_append]
  rw [hpath, rtakeWhile_append_cons]

theorem url_ne_rawUrl : f.url ≠ f.rawUrl := by
  intro h
  have hhosts := List.append_cancel_left h
  exact absurd (List.cons.inj hhosts).1 (by decide)

/-- **Exactly which file views are rewritten correctly.** -/
theorem rewrite_url_iff : rewrite f.url = some f.rawUrl ↔ f.Rewritable := by
  obtain ⟨parsed, hparse, hnetloc, hpath⟩ := f.urlparse_url
  rw [rewrite_eq hparse, hpath]
  constructor
  · intro h
    split at h
    case isTrue hcond =>
      have hraw := List.append_cancel_left (List.append_cancel_left (Option.some.inj h))
      have hkept := splitParams_prefix (beforeQuery (f.urlPath.filter isUrlChar))
      have hchars : ∀ c ∈ f.urlPath, isPathChar c = true := by
        intro c hc
        have hmark : ∀ d ∈ blobMark, isPathChar d = true := by decide
        have hslash : ∀ d ∈ "/".toList, isPathChar d = true := by decide
        rcases f.mem_urlPath hc with hc | hc
        · exact hmark c hc
        · rw [← hraw] at hc
          rcases mem_replaceFirst hc with hc | hc
          · exact hslash c hc
          · exact isPathChar_of_mem_beforeQuery (hkept.subset hc)
      rw [beforeQuery_filter hchars] at hraw hkept hcond
      -- the parameters would be missing from the length
      have hlen := length_replaceFirst "/".toList (by decide) hcond.2
      rw [hraw] at hlen
      have hsame : (splitParams f.urlPath).1 = f.urlPath := by
        apply hkept.eq_of_length
        have hmark : blobMark.length = 6 := rfl
        have hslash : "/".toList.length = 1 := rfl
        have hlen' := f.length_urlPath
        omega
      refine ⟨hchars, ?_, ?_⟩
      · rw [← f.lastSegment_urlPath]
        exact (splitParams_eq_self_iff _).1 hsame
      · rw [hsame] at hraw
        exact f.replaceFirst_urlPath_iff.1 hraw
    case isFalse hcond => exact absurd (Option.some.inj h) f.url_ne_rawUrl
  · intro h
    have hsame : (splitParams f.urlPath).1 = f.urlPath := by
      rw [splitParams_eq_self_iff, f.lastSegment_urlPath]
      exact h.lastSegment
    rw [beforeQuery_filter h.chars, hsame, if_pos ⟨hnetloc, f.occurs_blobMark⟩,
      f.replaceFirst_urlPath_iff.2 h.owner]
    rfl

end FileView

/-! ## Other URLs -/

theorem plainAuthority_rawHost : PlainAuthority rawHost := by
  decide

/-- The URL of raw contents is at another host. -/
theorem netloc_raw {x : Text} {parsed : ParsedUrl}
    (h : urlparse ("https://".toList ++ (rawHost ++ x)) = some parsed) :
    parsed.netloc ≠ githubHost := by
  have hscheme : PlainScheme "https".toList := by decide
  obtain ⟨parsed', -, hnetloc, -, hok, hbad⟩ := urlparse_eq hscheme (rawHost ++ x)
  have hparsed : parsed = parsed' := by
    by_cases hread : ReadableAuthority (authority (rawHost ++ x))
    · exact Option.some.inj (h.symm.trans (hok hread))
    · exact absurd (h.symm.trans (hbad hread)) (Option.some_ne_none _)
  rw [hparsed, hnetloc, authority_append plainAuthority_rawHost]
  intro heq
  exact absurd (List.cons.inj heq).1 (by decide)

/-- **Exactly which URLs are left alone.** -/
theorem rewrite_other_iff (url : Text) : rewrite url = some url ↔ LeftAlone url := by
  constructor
  · intro h
    cases hparse : urlparse url with
    | none =>
        rw [rewrite, hparse] at h
        exact absurd h (by simp)
    | some parsed =>
        refine ⟨parsed, hparse, ?_⟩
        by_contra hcond
        rw [not_or, not_not, not_not] at hcond
        rw [rewrite_eq hparse, if_pos hcond] at h
        rw [← Option.some.inj h] at hparse
        exact netloc_raw hparse hcond.1
  · intro h
    obtain ⟨parsed, hparse, hcond⟩ := h
    rw [rewrite_eq hparse, if_neg]
    intro hboth
    rcases hcond with hhost | hmark
    · exact hhost hboth.1
    · exact hmark hboth.2

/-- **Exactly when a URL is rewritten correctly**: a file view needs ordinary characters and the first
`/blob/` in its place, any other URL another host or no `/blob/` in its path. -/
theorem rewrittenCorrectly_iff (url : Text) :
    RewrittenCorrectly url ↔ (∀ f : FileView, url = f.url → f.Rewritable) ∧
      ((∀ f : FileView, url ≠ f.url) → LeftAlone url) := by
  constructor
  · intro h
    constructor
    · intro f hf
      exact f.rewrite_url_iff.1 (hf ▸ h.view f hf)
    · intro hother
      exact (rewrite_other_iff url).1 (h.other hother)
  · intro h
    constructor
    · intro f hf
      rw [hf]
      exact f.rewrite_url_iff.2 (h.1 f hf)
    · intro hother
      exact (rewrite_other_iff url).2 (h.2 hother)

/-- A file view whose owner is called `blob`. -/
def blobOwner : FileView where
  owner := "blob".toList
  repo := "airs".toList
  ref := "main".toList
  path := "a.config.txt".toList
  owner_segment := by decide
  repo_segment := by decide
  ref_segment := by decide
  path_ne := by decide

/-- The owner is taken for the `blob` of the view, and a directory `blob` of a listing for another. -/
theorem rewrittenCorrectly_fails_blobOwner :
    rewrite blobOwner.url
        = some "https://raw.githubusercontent.com/airs/blob/main/a.config.txt".toList ∧
      ¬ RewrittenCorrectly blobOwner.url ∧
      rewrite "https://github.com/nasa/airs/tree/main/blob/a".toList
        = some "https://raw.githubusercontent.com/nasa/airs/tree/main/a".toList := by
  have hrewrite : rewrite blobOwner.url
      = some "https://raw.githubusercontent.com/airs/blob/main/a.config.txt".toList := by
    decide
  refine ⟨hrewrite, ?_, by decide⟩
  intro h
  exact absurd (hrewrite.symm.trans (h.view blobOwner rfl)) (by decide)

end JosfraPge.Remote.RawUrl
