import Mathlib.Logic.Function.Iterate
import Mathlib.Tactic

/-!
# Processes that supersede one another

Each key has a slot with a store and at most one process at work on it.  A process takes its steps one at
a time; a new process in the slot cancels the one before it, wherever that one is.

* `runAll_project`: a slot is changed by the events of its own key only;
* `run_store`: however events interleave, a store is what the processes make of it one after another,
  each cut off when the next one started;
* `foldl_flag_iff`: a flag that is set, cleared or left has the value of the last change.
-/

namespace JosfraPge.Foundation.Superseding

variable {κ P S : Type}

/-- What can happen to a slot. -/
inductive Event (P : Type) where
  | start (p : P)
  /-- The process at work takes a step. -/
  | turn

structure Slot (P S : Type) where
  active : Option P
  store : S

section Slots

variable (step : P → S → P × S)

def onEvent (slot : Slot P S) : Event P → Slot P S
  | .start p => { slot with active := some p }
  | .turn =>
      match slot.active with
      | none => slot
      | some p => { active := some (step p slot.store).1, store := (step p slot.store).2 }

def run (events : List (Event P)) (slot : Slot P S) : Slot P S := events.foldl (onEvent step) slot

/-- The process and the store after so many steps. -/
def steps (k : ℕ) (p : P) (s : S) : P × S := (fun x : P × S => step x.1 x.2)^[k] (p, s)

theorem steps_succ (k : ℕ) (p : P) (s : S) :
    steps step (k + 1) p s = steps step k (step p s).1 (step p s).2 := rfl

theorem steps_add (j k : ℕ) (p : P) (s : S) :
    steps step (j + k) p s = steps step k (steps step j p s).1 (steps step j p s).2 := by
  show (fun x : P × S => step x.1 x.2)^[j + k] (p, s) = _
  rw [Nat.add_comm, Function.iterate_add_apply]
  rfl

/-- A process that has ended takes no further steps. -/
theorem steps_of_fixed {p : P} (hfixed : ∀ s, step p s = (p, s)) (k : ℕ) (s : S) :
    steps step k p s = (p, s) := by
  induction k with
  | zero => rfl
  | succ k ih =>
      rw [steps_succ, hfixed s]
      exact ih

/-- The steps taken before the next process starts. -/
def turnsLeft : List (Event P) → ℕ
  | .turn :: events => turnsLeft events + 1
  | _ => 0

/-- The processes that start, each with the number of steps it gets to take. -/
def cuts : List (Event P) → List (P × ℕ)
  | [] => []
  | .start p :: events => (p, turnsLeft events) :: cuts events
  | .turn :: events => cuts events

/-- Only what has started is cut off. -/
theorem mem_cuts {events : List (Event P)} {c : P × ℕ} (h : c ∈ cuts events) :
    Event.start c.1 ∈ events := by
  induction events with
  | nil => exact absurd h (List.not_mem_nil)
  | cons e events ih =>
      cases e with
      | turn => exact List.mem_cons_of_mem _ (ih h)
      | start p =>
          rcases List.mem_cons.1 h with hfirst | hrest
          · rw [hfirst]
            exact List.mem_cons_self
          · exact List.mem_cons_of_mem _ (ih hrest)

/-- A process that is cut off. -/
def cutOff (s : S) (cut : P × ℕ) : S := (steps step cut.2 cut.1 s).2

/-- The store, whether the slot is idle at first or not. -/
theorem run_store_from (events : List (Event P)) :
    (∀ s, (run step events ⟨none, s⟩).store = (cuts events).foldl (cutOff step) s) ∧
      ∀ p s, (run step events ⟨some p, s⟩).store
        = (cuts events).foldl (cutOff step) (steps step (turnsLeft events) p s).2 := by
  induction events with
  | nil => exact ⟨fun s => rfl, fun p s => rfl⟩
  | cons e events ih =>
      obtain ⟨hidle, hbusy⟩ := ih
      cases e with
      | start q => exact ⟨fun s => hbusy q s, fun p s => hbusy q s⟩
      | turn =>
          refine ⟨fun s => hidle s, fun p s => ?_⟩
          show (run step events ⟨some (step p s).1, (step p s).2⟩).store = _
          rw [hbusy]
          rfl

/-- **The processes act as if one after another**, each cut off when the next one starts. -/
theorem run_store (events : List (Event P)) (s : S) :
    (run step events ⟨none, s⟩).store = (cuts events).foldl (cutOff step) s :=
  (run_store_from step events).1 s

/-! ## Many slots -/

variable [DecidableEq κ]

def onKeyed (slots : κ → Slot P S) (e : κ × Event P) : κ → Slot P S :=
  Function.update slots e.1 (onEvent step (slots e.1) e.2)

def runAll (events : List (κ × Event P)) (slots : κ → Slot P S) : κ → Slot P S :=
  events.foldl (onKeyed step) slots

/-- The events of one key. -/
def project (k : κ) (events : List (κ × Event P)) : List (Event P) :=
  events.filterMap fun e => if e.1 = k then some e.2 else none

/-- **A slot sees only the events of its own key.** -/
theorem runAll_project (events : List (κ × Event P)) (slots : κ → Slot P S) (k : κ) :
    runAll step events slots k = run step (project k events) (slots k) := by
  induction events generalizing slots with
  | nil => rfl
  | cons e events ih =>
      show runAll step events (onKeyed step slots e) k = _
      rw [ih]
      by_cases hk : e.1 = k
      · have hslot : onKeyed step slots e k = onEvent step (slots k) e.2 := by
          rw [onKeyed, hk, Function.update_self]
        rw [hslot, project, project, List.filterMap_cons, if_pos hk]
        rfl
      · have hslot : onKeyed step slots e k = slots k := Function.update_of_ne (Ne.symm hk) _ _
        rw [hslot, project, project, List.filterMap_cons, if_neg hk]

end Slots

/-! ## Flags -/

/-- Each change sets the flag, clears it or leaves it; the last one that does not leave it counts. -/
theorem foldl_flag_iff {α : Type} {flag : S → Bool} {change : S → α → S} {Sets Clears : α → Prop}
    (hchange : ∀ s a, flag (change s a) = true ↔ Sets a ∨ (flag s = true ∧ ¬ Clears a))
    (changes : List α) (s : S) :
    flag (changes.foldl change s) = true ↔
      (∃ before a after, changes = before ++ a :: after ∧ Sets a ∧ ∀ b ∈ after, ¬ Clears b) ∨
        (flag s = true ∧ ∀ b ∈ changes, ¬ Clears b) := by
  induction changes generalizing s with
  | nil => simp
  | cons c changes ih =>
      rw [List.foldl_cons, ih, hchange]
      constructor
      · intro h
        rcases h with ⟨before, a, after, hsplit, hsets, hafter⟩ | ⟨hset | ⟨hflag, hclear⟩, hrest⟩
        · exact Or.inl ⟨c :: before, a, after, by rw [hsplit]; rfl, hsets, hafter⟩
        · exact Or.inl ⟨[], c, changes, rfl, hset, hrest⟩
        · exact Or.inr ⟨hflag, List.forall_mem_cons.2 ⟨hclear, hrest⟩⟩
      · intro h
        rcases h with ⟨before, a, after, hsplit, hsets, hafter⟩ | ⟨hflag, hall⟩
        · cases before with
          | nil =>
              injection hsplit with hc hchanges
              subst hc hchanges
              exact Or.inr ⟨Or.inl hsets, hafter⟩
          | cons d before =>
              injection hsplit with _ hchanges
              exact Or.inl ⟨before, a, after, hchanges, hsets, hafter⟩
        · obtain ⟨hclear, hrest⟩ := List.forall_mem_cons.1 hall
          exact Or.inr ⟨Or.inr ⟨hflag, hclear⟩, hrest⟩

end JosfraPge.Foundation.Superseding
