import Mathlib.Order.Basic
import Mathlib.Tactic

/-!
# Searching a table from a remembered place

A table of keys is searched for the last key that is not above a value.  The search starts where the one
before ended: it goes down as long as the value is less than the key before the cursor, or else up as long
as the value is at least the key at the cursor.  Values need not be comparable, as a NaN is not.

* `moveCursor_brackets`: the search ends between two keys, whatever the table;
* `Brackets.eq_countP`: on a sorted table that place does not depend on where the search starts.
-/

namespace JosfraPge.Foundation.TableCursor

variable {α : Type} [LE α] [LT α] [DecidableLE α] [DecidableLT α]

/-- `while (t < keys[c-1]) c--` -/
def cursorDown (keys : List α) (t : α) : ℕ → ℕ
  | 0 => 0
  | c + 1 => if keys[c]?.any (fun key => decide (t < key)) then cursorDown keys t c else c + 1

/-- `while (c < n && t >= keys[c]) c++`, over the keys from the cursor on. -/
def cursorUp (t : α) : List α → ℕ → ℕ
  | [], c => c
  | key :: keys, c => if key ≤ t then cursorUp t keys (c + 1) else c

def moveCursor (keys : List α) (t : α) (c : ℕ) : ℕ :=
  if keys[c - 1]?.any (fun key => decide (t < key)) then cursorDown keys t c
  else cursorUp t (keys.drop c) c

/-- The value is not less than the key before the cursor, and not at least the one at the cursor, if there
is one. -/
structure Brackets (keys : List α) (t : α) (c : ℕ) : Prop where
  pos : 1 ≤ c
  le : c ≤ keys.length
  below : ∀ key, keys[c - 1]? = some key → ¬ t < key
  above : ∀ key, keys[c]? = some key → ¬ key ≤ t

section Search

variable {keys : List α} {t : α}

omit [DecidableLE α] [DecidableLT α] in
theorem not_le_of_less [Std.LawfulOrderLT α] {a b : α} (h : a < b) : ¬ b ≤ a :=
  ((Std.LawfulOrderLT.lt_iff a b).1 h).2

omit [DecidableLE α] in
theorem cursorDown_brackets [Std.LawfulOrderLT α] {c : ℕ} (hlen : c ≤ keys.length)
    (hfirst : ∀ key, keys[0]? = some key → key ≤ t)
    (habove : ∀ key, keys[c]? = some key → ¬ key ≤ t) (hne : keys ≠ []) :
    Brackets keys t (cursorDown keys t c) := by
  induction c with
  | zero =>
      obtain ⟨key, rest, rfl⟩ := List.exists_cons_of_ne_nil hne
      exact absurd (hfirst key rfl) (habove key rfl)
  | succ c ih =>
      have hc : keys[c]? = some keys[c] := List.getElem?_eq_getElem hlen
      unfold cursorDown
      by_cases hlt : t < keys[c]
      · have hcond : keys[c]?.any (fun key => decide (t < key)) = true := by
          rw [hc]
          exact decide_eq_true hlt
        rw [if_pos hcond]
        apply ih (Nat.le_of_succ_le hlen)
        intro key hkey
        rw [hc] at hkey
        exact Option.some.inj hkey ▸ not_le_of_less hlt
      · have hcond : ¬ keys[c]?.any (fun key => decide (t < key)) = true := by
          rw [hc]
          simpa using hlt
        rw [if_neg hcond]
        refine ⟨Nat.le_add_left _ _, hlen, ?_, habove⟩
        intro key hkey
        have hkey : keys[c]? = some key := hkey
        rw [hc] at hkey
        exact Option.some.inj hkey ▸ hlt

omit [DecidableLT α] in
theorem cursorUp_brackets [Std.LawfulOrderLT α] (rest : List α) {c : ℕ} (hpos : 1 ≤ c)
    (hrest : keys.drop c = rest) (hlen : c ≤ keys.length)
    (hbelow : ∀ key, keys[c - 1]? = some key → ¬ t < key) :
    Brackets keys t (cursorUp t rest c) := by
  induction rest generalizing c with
  | nil =>
      have hend : keys.length ≤ c := List.drop_eq_nil_iff.1 hrest
      refine ⟨hpos, hlen, hbelow, ?_⟩
      intro key hkey
      rw [cursorUp, List.getElem?_eq_none hend] at hkey
      exact absurd hkey (by simp)
  | cons key rest ih =>
      have hkey : keys[c]? = some key := by
        have hhead : (keys.drop c)[0]? = some key := by
          rw [hrest]
          rfl
        rwa [List.getElem?_drop, Nat.add_zero] at hhead
      obtain ⟨hlt, -⟩ := List.getElem?_eq_some_iff.1 hkey
      unfold cursorUp
      by_cases hle : key ≤ t
      · rw [if_pos hle]
        apply ih (Nat.le_add_left _ _) _ hlt
        · intro key' hkey'
          have hkey' : keys[c]? = some key' := hkey'
          rw [hkey] at hkey'
          exact Option.some.inj hkey' ▸ fun hless => not_le_of_less hless hle
        · rw [← List.tail_drop, hrest]
          rfl
      · rw [if_neg hle]
        refine ⟨hpos, hlen, hbelow, ?_⟩
        intro key' hkey'
        rw [hkey] at hkey'
        exact Option.some.inj hkey' ▸ hle

/-- **The search ends between two keys**, for a value that is not below the first key. -/
theorem moveCursor_brackets [Std.LawfulOrderLT α] {c : ℕ} (hpos : 1 ≤ c) (hlen : c ≤ keys.length)
    (hfirst : ∀ key, keys[0]? = some key → key ≤ t) : Brackets keys t (moveCursor keys t c) := by
  have hne : keys ≠ [] := by
    rintro rfl
    exact absurd (hpos.trans hlen) (by simp)
  obtain ⟨k, rfl⟩ := Nat.exists_eq_add_of_le' hpos
  have hk : keys[k]? = some keys[k] := List.getElem?_eq_getElem hlen
  unfold moveCursor
  rw [Nat.add_sub_cancel]
  by_cases hlt : t < keys[k]
  · have hcond : keys[k]?.any (fun key => decide (t < key)) = true := by
      rw [hk]
      exact decide_eq_true hlt
    have hdown : cursorDown keys t (k + 1) = cursorDown keys t k := if_pos hcond
    rw [if_pos hcond, hdown]
    apply cursorDown_brackets (Nat.le_of_succ_le hlen) hfirst _ hne
    intro key hkey
    rw [hk] at hkey
    exact Option.some.inj hkey ▸ not_le_of_less hlt
  · have hcond : ¬ keys[k]?.any (fun key => decide (t < key)) = true := by
      rw [hk]
      simpa using hlt
    rw [if_neg hcond]
    apply cursorUp_brackets _ (Nat.le_add_left _ _) rfl hlen
    intro key hkey
    have hkey : keys[k]? = some key := hkey
    rw [hk] at hkey
    exact Option.some.inj hkey ▸ hlt

end Search

section Sorted

variable {α : Type} [LinearOrder α] {keys : List α} {t : α}

/-- On a sorted table the place between two keys is the number of keys that are not above. -/
theorem Brackets.eq_countP (hsorted : keys.Pairwise (· ≤ ·)) {c : ℕ} (h : Brackets keys t c) :
    c = keys.countP fun key => decide (key ≤ t) := by
  obtain ⟨hpos, hlen, hbelow, habove⟩ := h
  obtain ⟨k, rfl⟩ := Nat.exists_eq_add_of_le' hpos
  have hk : keys[k]? = some keys[k] := List.getElem?_eq_getElem hlen
  have hsplit := List.take_append_drop (k + 1) keys
  have hall : ∀ key ∈ keys.take (k + 1), key ≤ t := by
    intro key hkey
    obtain ⟨i, hi, rfl⟩ := List.mem_iff_getElem.1 hkey
    rw [List.length_take] at hi
    have hle : keys[i] ≤ keys[k] := by
      rcases Nat.lt_or_ge i k with hik | hik
      · exact List.pairwise_iff_getElem.1 hsorted i k _ _ hik
      · have hsame : i = k := by omega
        subst hsame
        exact le_refl _
    rw [List.getElem_take]
    exact hle.trans (not_lt.1 (hbelow _ hk))
  have hnone : ∀ key ∈ keys.drop (k + 1), ¬ key ≤ t := by
    intro key hkey
    obtain ⟨i, hi, rfl⟩ := List.mem_iff_getElem.1 hkey
    rw [List.length_drop] at hi
    rw [List.getElem_drop, not_le]
    have hnext : keys[k + 1]? = some keys[k + 1] := List.getElem?_eq_getElem (by omega)
    have hle : keys[k + 1] ≤ keys[k + 1 + i] := by
      rcases Nat.eq_zero_or_pos i with hi0 | hi0
      · subst hi0
        exact le_refl _
      · exact List.pairwise_iff_getElem.1 hsorted (k + 1) (k + 1 + i) _ _ (by omega)
    exact (not_le.1 (habove _ hnext)).trans_le hle
  rw [← hsplit, List.countP_append, List.countP_eq_length.2 (by simpa using hall),
    List.countP_eq_zero.2 (by simpa using hnone), List.length_take]
  omega

end Sorted

end JosfraPge.Foundation.TableCursor
