import JosfraPge.Foundation.LineText

/-!
# Pure POSIX paths, as `pathlib` keeps them

A path is its root (none, `/`, or the `//` POSIX sets apart) and its parts; empty parts and `.` are
dropped, `..` is kept.

* `ofText_single`: a text without slash is one part;
* `parts_append`: what is written after the last slash stays at the end of the last part;
* `join_relative`: joining a relative path adds its parts;
* `ofText_str`: a path is read back from its text.
-/

namespace JosfraPge.Foundation.PosixPath

open JosfraPge.Foundation.LineText

structure PurePath where
  root : Text
  parts : List Text
deriving DecidableEq, Repr

def rootOf : Text → Text
  | '/' :: '/' :: '/' :: _ => ['/']
  | '/' :: '/' :: _ => ['/', '/']
  | '/' :: _ => ['/']
  | _ => []

/-- A part that `pathlib` keeps. -/
def Kept (p : Text) : Prop := p ≠ [] ∧ p ≠ ['.']

instance (p : Text) : Decidable (Kept p) := inferInstanceAs (Decidable (p ≠ [] ∧ p ≠ ['.']))

def partsOf (s : Text) : List Text := (s.splitOn '/').filter fun p => decide (Kept p)

namespace PurePath

/-- `Path(s)` -/
def ofText (s : Text) : PurePath := { root := rootOf s, parts := partsOf s }

/-- `p / s` -/
def join (p : PurePath) (s : Text) : PurePath :=
  if rootOf s = [] then { p with parts := p.parts ++ partsOf s } else ofText s

/-- `p.name` -/
def name (p : PurePath) : Text := (p.parts.getLast?).getD []

/-- The directory a path is in. -/
def parent (p : PurePath) : PurePath := { p with parts := p.parts.dropLast }

/-- `str(p)` -/
def str (p : PurePath) : Text :=
  if p.root = [] ∧ p.parts = [] then ['.'] else p.root ++ List.intercalate ['/'] p.parts

end PurePath

open PurePath

/-! ## Parts of a text -/

theorem partsOf_slash (s t : Text) : partsOf (s ++ '/' :: t) = partsOf s ++ partsOf t := by
  rw [partsOf, List.splitOn_append_cons_self, List.filter_append]
  rfl

theorem partsOf_single {s : Text} (hs : '/' ∉ s) (hk : Kept s) : partsOf s = [s] := by
  rw [partsOf, List.splitOn_eq_singleton hs, List.filter_cons, if_pos (decide_eq_true hk)]
  rfl

theorem rootOf_cons {c : Char} {s : Text} (hc : c ≠ '/') : rootOf (c :: s) = [] := by
  unfold rootOf
  split <;> first | rfl | exact absurd (List.cons.inj (by assumption)).1 hc

/-- The part of a text after its last slash. -/
theorem exists_last_part (s : Text) :
    ∃ b, '/' ∉ b ∧ (s = b ∨ ∃ a, s = a ++ '/' :: b) := by
  induction s with
  | nil => exact ⟨[], by simp, Or.inl rfl⟩
  | cons c s ih =>
      obtain ⟨b, hb, h⟩ := ih
      rcases h with rfl | ⟨a, rfl⟩
      · by_cases hc : c = '/'
        · exact ⟨s, hb, Or.inr ⟨[], by rw [hc]; rfl⟩⟩
        · refine ⟨c :: s, ?_, Or.inl rfl⟩
          intro hmem
          rcases List.mem_cons.1 hmem with h | h
          · exact hc h.symm
          · exact hb h
      · exact ⟨b, hb, Or.inr ⟨c :: a, rfl⟩⟩

theorem kept_append {b t : Text} (ht : 2 ≤ t.length) : Kept (b ++ t) := by
  have hlen : 2 ≤ (b ++ t).length := by
    rw [List.length_append]
    omega
  constructor
  · intro h
    rw [h] at hlen
    exact absurd hlen (by decide)
  · intro h
    rw [h] at hlen
    exact absurd hlen (by decide)

/-- What is appended without a slash ends up at the end of the last part. -/
theorem parts_append (s : Text) {t : Text} (ht : '/' ∉ t) (hlen : 2 ≤ t.length) :
    ∃ ps b, partsOf (s ++ t) = ps ++ [b ++ t] := by
  obtain ⟨b, hb, h⟩ := exists_last_part s
  have hslash : '/' ∉ b ++ t := by
    intro hmem
    rcases List.mem_append.1 hmem with h | h
    · exact hb h
    · exact ht h
  have hlast : partsOf (b ++ t) = [b ++ t] := partsOf_single hslash (kept_append hlen)
  rcases h with rfl | ⟨a, rfl⟩
  · exact ⟨[], s, hlast⟩
  · refine ⟨partsOf a, b, ?_⟩
    rw [List.append_assoc, List.cons_append, partsOf_slash, hlast]

theorem ofText_single {c : Char} {s : Text} (hs : '/' ∉ c :: s) (hk : Kept (c :: s)) :
    ofText (c :: s) = { root := [], parts := [c :: s] } := by
  have hc : c ≠ '/' := fun h => hs (List.mem_cons.2 (Or.inl h.symm))
  rw [ofText, rootOf_cons hc, partsOf_single hs hk]

/-! ## Joining -/

theorem join_relative (p : PurePath) {c : Char} {s : Text} (hc : c ≠ '/') :
    p.join (c :: s) = { p with parts := p.parts ++ partsOf (c :: s) } := by
  rw [join, if_pos (rootOf_cons hc)]

/-! ## Printing -/

/-- A path as `pathlib` keeps it. -/
structure PurePath.WellFormed (p : PurePath) : Prop where
  root : p.root = [] ∨ p.root = ['/'] ∨ p.root = ['/', '/']
  parts : ∀ q ∈ p.parts, Kept q ∧ '/' ∉ q

theorem partsOf_nil : partsOf [] = [] := rfl

theorem partsOf_cons_slash (s : Text) : partsOf ('/' :: s) = partsOf s := by
  have h := partsOf_slash [] s
  rwa [partsOf_nil] at h

/-- Parts that are kept come back from their text. -/
theorem partsOf_intercalate {ps : List Text} (h : ∀ q ∈ ps, Kept q ∧ '/' ∉ q) :
    partsOf (List.intercalate ['/'] ps) = ps := by
  cases ps with
  | nil => rfl
  | cons q ps =>
      rw [partsOf, List.splitOn_intercalate '/' (fun l hl => (h l hl).2) (List.cons_ne_nil q ps),
        List.filter_eq_self]
      intro l hl
      exact decide_eq_true (h l hl).1

theorem head_intercalate {ps : List Text} (h : ∀ q ∈ ps, Kept q ∧ '/' ∉ q) :
    ∀ c ∈ (List.intercalate ['/'] ps).head?, c ≠ '/' := by
  intro c hc
  cases ps with
  | nil => exact absurd hc (by simp)
  | cons q ps =>
      obtain ⟨hk, hs⟩ := h q List.mem_cons_self
      cases q with
      | nil => exact absurd rfl hk.1
      | cons d q =>
          have hd : (List.intercalate ['/'] ((d :: q) :: ps)).head? = some d := by
            cases ps <;> rfl
          rw [hd] at hc
          intro heq
          exact hs (List.mem_cons.2 (Or.inl (heq.symm.trans (Option.some.inj hc).symm)))

/-- A root is found in front of a text that begins with no slash. -/
theorem rootOf_append {root s : Text} (hroot : root = [] ∨ root = ['/'] ∨ root = ['/', '/'])
    (hs : ∀ c ∈ s.head?, c ≠ '/') : rootOf (root ++ s) = root := by
  cases s with
  | nil => rcases hroot with rfl | rfl | rfl <;> rfl
  | cons c s =>
      have hc : c ≠ '/' := hs c rfl
      have hnone : rootOf (c :: s) = [] := rootOf_cons hc
      rcases hroot with rfl | rfl | rfl
      · exact hnone
      · show rootOf ('/' :: c :: s) = ['/']
        simp [rootOf, hc]
      · show rootOf ('/' :: '/' :: c :: s) = ['/', '/']
        simp [rootOf, hc]

theorem partsOf_root {root : Text} (hroot : root = [] ∨ root = ['/'] ∨ root = ['/', '/']) (s : Text) :
    partsOf (root ++ s) = partsOf s := by
  rcases hroot with rfl | rfl | rfl
  · rfl
  · exact partsOf_cons_slash s
  · exact (partsOf_cons_slash _).trans (partsOf_cons_slash s)

/-- **A path is read back from its text.** -/
theorem ofText_str {p : PurePath} (h : p.WellFormed) : ofText p.str = p := by
  obtain ⟨root, parts⟩ := p
  obtain ⟨hroot, hparts⟩ := h
  by_cases hempty : root = [] ∧ parts = []
  · obtain ⟨rfl, rfl⟩ := hempty
    rfl
  · have hstr : PurePath.str { root := root, parts := parts }
        = root ++ List.intercalate ['/'] parts := if_neg hempty
    rw [hstr, ofText, rootOf_append hroot (head_intercalate hparts), partsOf_root hroot,
      partsOf_intercalate hparts]

end JosfraPge.Foundation.PosixPath
