import JosfraPge.Foundation.LineText
import Mathlib.Data.List.Permutation

/-!
# Directory trees and the order of a walk

A tree of files, links and directories as a walk that follows no link sees it.  The order in which
the entries of a directory are read is not fixed, so `find` takes it as a parameter.

* `mem_find`: what a walk finds does not depend on the order;
* `find_preferring`: every file it finds comes first in some order;
* `headOne_printPaths`: what `head -1` keeps of the printed paths.
-/

namespace JosfraPge.Foundation.DirectoryTree

open JosfraPge.Foundation.LineText

/-! ## Trees -/

inductive FileKind where
  | regular
  | symlink (toDirectory : Bool)
  /-- A device, a pipe or a socket. -/
  | special
  deriving DecidableEq

inductive Entry where
  | file (name : Text) (kind : FileKind)
  | directory (name : Text) (entries : List Entry)

namespace Entry

/-- Induction over the entries of every directory. -/
@[induction_eliminator]
theorem induct {P : Entry → Prop} (file : ∀ name kind, P (.file name kind))
    (directory : ∀ name entries, (∀ e ∈ entries, P e) → P (.directory name entries)) (e : Entry) :
    P e := by
  refine @Entry.rec P (fun entries => ∀ e ∈ entries, P e) file directory ?_ ?_ e
  · intro e he
    exact absurd he List.not_mem_nil
  · intro e entries he hentries e' hmem
    rcases List.mem_cons.mp hmem with heq | hmem
    · rw [heq]
      exact he
    · exact hentries e' hmem

def name : Entry → Text
  | .file name _ => name
  | .directory name _ => name

/-- What `[ -d ]` says of the entry, which follows a link. -/
def isDirectory : Entry → Bool
  | .file _ kind => kind = .symlink true
  | .directory _ _ => true

end Entry

/-- The path a walk prints for an entry of the directory at `path`. -/
def childPath (path name : Text) : Text :=
  if path.getLast? = some '/' then path ++ name else path ++ '/' :: name

/-- A regular file with a wanted name stands at `p` in the tree at `path`. -/
inductive FileAt (wanted : Text → Bool) : Text → Entry → Text → Prop
  | here {path name : Text} : wanted name = true → FileAt wanted path (.file name .regular) path
  | inside {path name p : Text} {entries : List Entry} {e : Entry} : e ∈ entries →
      FileAt wanted (childPath path e.name) e p → FileAt wanted path (.directory name entries) p

/-! ## Walks -/

/-- The order in which the entries of each directory are read, as the order in which the walk
goes through what it finds in them. -/
structure ReadOrder where
  order : Text → List (List Text) → List (List Text)
  perm : ∀ path results, (order path results).Perm results

/-- The entries as they are stored. -/
def ReadOrder.stored : ReadOrder where
  order := fun _ results => results
  perm := fun _ results => List.Perm.refl results

mutual

/-- `find path -type f -name …`, which follows no link. -/
def find (order : ReadOrder) (wanted : Text → Bool) (path : Text) : Entry → List Text
  | .file name kind => if kind = .regular ∧ wanted name = true then [path] else []
  | .directory _ entries => (order.order path (findEach order wanted path entries)).flatten

def findEach (order : ReadOrder) (wanted : Text → Bool) (path : Text) : List Entry → List (List Text)
  | [] => []
  | e :: entries =>
      find order wanted (childPath path e.name) e :: findEach order wanted path entries

end

variable {order : ReadOrder} {wanted : Text → Bool}

theorem mem_findEach {path : Text} {entries : List Entry} {r : List Text} :
    r ∈ findEach order wanted path entries ↔
      ∃ e ∈ entries, r = find order wanted (childPath path e.name) e := by
  induction entries with
  | nil => simp [findEach]
  | cons e entries ih => simp [findEach, ih]

theorem mem_find_directory {path name p : Text} {entries : List Entry} :
    p ∈ find order wanted path (.directory name entries) ↔
      ∃ e ∈ entries, p ∈ find order wanted (childPath path e.name) e := by
  rw [find, List.mem_flatten]
  constructor
  · intro h
    obtain ⟨r, hr, hp⟩ := h
    obtain ⟨e, he, hfind⟩ := mem_findEach.mp ((order.perm path _).mem_iff.mp hr)
    exact ⟨e, he, hfind ▸ hp⟩
  · intro h
    obtain ⟨e, he, hp⟩ := h
    exact ⟨_, (order.perm path _).mem_iff.mpr (mem_findEach.mpr ⟨e, he, rfl⟩), hp⟩

variable (order) in
/-- **A walk finds the wanted regular files, in whatever order it reads the directories.** -/
theorem mem_find {path p : Text} {e : Entry} :
    p ∈ find order wanted path e ↔ FileAt wanted path e p := by
  constructor
  · intro h
    induction e generalizing path with
    | file name kind =>
        rw [find] at h
        split at h
        · rename_i hkind
          obtain ⟨hregular, hwanted⟩ := hkind
          rw [List.mem_singleton.mp h, hregular]
          exact FileAt.here hwanted
        · exact absurd h List.not_mem_nil
    | directory name entries ih =>
        obtain ⟨e, he, hp⟩ := mem_find_directory.mp h
        exact FileAt.inside he (ih e he hp)
  · intro h
    induction h with
    | here hwanted =>
        rw [find, if_pos ⟨rfl, hwanted⟩]
        exact List.mem_singleton_self _
    | inside he _ ih => exact mem_find_directory.mpr ⟨_, he, ih⟩

theorem find_eq_nil {path : Text} {e : Entry} (h : ∀ p, ¬ FileAt wanted path e p) :
    find order wanted path e = [] := by
  apply List.eq_nil_iff_forall_not_mem.mpr
  intro p hp
  exact h p ((mem_find order).mp hp)

/-- Read first what leads to `p`. -/
def preferring (p : Text) : ReadOrder where
  order := fun _ results =>
    results.filter (fun r => decide (p ∈ r)) ++ results.filter (fun r => !decide (p ∈ r))
  perm := fun _ results => List.filter_append_perm _ results

/-- **Every file can be the first that is found.** -/
theorem find_preferring {path p : Text} {e : Entry} (h : FileAt wanted path e p) :
    (find (preferring p) wanted path e).head? = some p := by
  have hmem : p ∈ find (preferring p) wanted path e := (mem_find _).mpr h
  clear h
  induction e generalizing path with
  | file name kind =>
      rw [find] at hmem ⊢
      split at hmem
      · rename_i hkind
        rw [if_pos hkind, List.mem_singleton.mp hmem]
        rfl
      · exact absurd hmem List.not_mem_nil
  | directory name entries ih =>
      obtain ⟨e, he, hp⟩ := mem_find_directory.mp hmem
      have hkept : find (preferring p) wanted (childPath path e.name) e ∈
          (findEach (preferring p) wanted path entries).filter (fun r => decide (p ∈ r)) :=
        List.mem_filter.mpr ⟨mem_findEach.mpr ⟨e, he, rfl⟩, decide_eq_true hp⟩
      obtain ⟨r, rs, hrs⟩ := List.exists_cons_of_ne_nil (List.ne_nil_of_mem hkept)
      have hr : r ∈ (findEach (preferring p) wanted path entries).filter
          (fun r => decide (p ∈ r)) := by
        rw [hrs]
        exact List.mem_cons_self
      obtain ⟨hfound, hholds⟩ := List.mem_filter.mp hr
      obtain ⟨e', he', hfind⟩ := mem_findEach.mp hfound
      have hhead : r.head? = some p := by
        rw [hfind]
        exact ih e' he' (hfind ▸ of_decide_eq_true hholds)
      show (List.flatten (_ ++ _)).head? = some p
      rw [hrs, List.cons_append, List.flatten_cons, List.head?_append, hhead]
      rfl

/-! ## Printed paths -/

/-- `-print`: each path and a newline. -/
def printPaths (paths : List Text) : Text := joinLines paths []

/-- `head -1` -/
def headOne (s : Text) : Text :=
  match (splitLines s).1 with
  | l :: _ => l ++ ['\n']
  | [] => (splitLines s).2

theorem splitLines_append_newline (p s : Text) :
    ∃ ls, (splitLines (p ++ '\n' :: s)).1 = firstLine p :: ls := by
  have hline := newline_not_mem_firstLine p
  rcases firstLine_cases p with ⟨_, hp⟩ | ⟨rest, _, hp⟩
  · rw [hp] at hline ⊢
    exact ⟨_, by rw [splitLines_line hline]⟩
  · refine ⟨(splitLines (rest ++ '\n' :: s)).1, ?_⟩
    conv_lhs => rw [hp]
    rw [List.append_assoc, List.cons_append, splitLines_line hline]

/-- `$(… | head -1)` of printed paths is the first line of the first path. -/
theorem headOne_printPaths (p : Text) (paths : List Text) :
    dropTrailingNewlines (headOne (printPaths (p :: paths))) = firstLine p := by
  obtain ⟨ls, hls⟩ := splitLines_append_newline p (joinLines paths [])
  rw [headOne, printPaths, joinLines_cons, hls]
  show dropTrailingNewlines (firstLine p ++ ['\n']) = firstLine p
  rw [dropTrailingNewlines_newline, dropTrailingNewlines_of_not_mem (newline_not_mem_firstLine p)]

end JosfraPge.Foundation.DirectoryTree
