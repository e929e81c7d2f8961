import Mathlib.Logic.Function.Iterate
import Mathlib.Tactic

/-!
# Drawing until a draw is accepted

A draw takes a value from a source and leaves the source in another state.

* `redraw_cases`: the result is the first draw that is accepted, or the fallback's when none is;
* `draws_spec`: as many values as are asked for, each of them drawn.
-/

namespace JosfraPge.Foundation.Redraw

variable {σ α : Type}

/-- The source after so many draws. -/
def stateAfter (draw : σ → α × σ) (s : σ) (k : ℕ) : σ := (fun t => (draw t).2)^[k] s

/-- The value of the `k`-th draw, counted from zero. -/
def drawAt (draw : σ → α × σ) (s : σ) (k : ℕ) : α := (draw (stateAfter draw s k)).1

section Redraw

variable (draw fallback : σ → α × σ) (accept : α → Prop) [DecidablePred accept]

/-- At most so many draws; when none is accepted, the fallback. -/
def redraw : ℕ → σ → α × σ
  | 0, s => fallback s
  | attempts + 1, s =>
      if accept (draw s).1 then draw s else redraw attempts (draw s).2

/-- None of the first draws is accepted. -/
def Rejected (s : σ) (k : ℕ) : Prop := ∀ m < k, ¬ accept (drawAt draw s m)

variable {draw accept} in
omit [DecidablePred accept] in
theorem rejected_succ {s : σ} {k : ℕ} (hfirst : ¬ accept (draw s).1)
    (h : Rejected draw accept (draw s).2 k) : Rejected draw accept s (k + 1) := by
  intro m hm
  cases m with
  | zero => exact hfirst
  | succ m => exact h m (by omega)

/-- **The first accepted draw, or the fallback**, with the source where that leaves it. -/
theorem redraw_cases (attempts : ℕ) (s : σ) :
    (∃ k < attempts, accept (drawAt draw s k) ∧ Rejected draw accept s k ∧
        redraw draw fallback accept attempts s = draw (stateAfter draw s k)) ∨
      (Rejected draw accept s attempts ∧
        redraw draw fallback accept attempts s = fallback (stateAfter draw s attempts)) := by
  induction attempts generalizing s with
  | zero => exact Or.inr ⟨fun m hm => absurd hm (Nat.not_lt_zero m), rfl⟩
  | succ attempts ih =>
      by_cases hfirst : accept (draw s).1
      · refine Or.inl ⟨0, Nat.succ_pos _, hfirst, fun m hm => absurd hm (Nat.not_lt_zero m), ?_⟩
        exact if_pos hfirst
      · have hstep : redraw draw fallback accept (attempts + 1) s
            = redraw draw fallback accept attempts (draw s).2 := if_neg hfirst
        rcases ih (draw s).2 with ⟨k, hk, haccept, hrejected, hresult⟩ | ⟨hrejected, hresult⟩
        · exact Or.inl ⟨k + 1, by omega, haccept, rejected_succ hfirst hrejected,
            hstep.trans hresult⟩
        · exact Or.inr ⟨rejected_succ hfirst hrejected, hstep.trans hresult⟩

end Redraw

/-! ## Many draws -/

def draws (draw : σ → α × σ) : ℕ → σ → List α × σ
  | 0, s => ([], s)
  | k + 1, s => ((draw s).1 :: (draws draw k (draw s).2).1, (draws draw k (draw s).2).2)

/-- **As many values as are asked for**, and of each what holds of every draw. -/
theorem draws_spec (draw : σ → α × σ) (P : α → Prop) (h : ∀ s, P (draw s).1) (k : ℕ) (s : σ) :
    (draws draw k s).1.length = k ∧ ∀ a ∈ (draws draw k s).1, P a := by
  induction k generalizing s with
  | zero => exact ⟨rfl, fun a ha => absurd ha List.not_mem_nil⟩
  | succ k ih =>
      obtain ⟨hlength, hall⟩ := ih (draw s).2
      refine ⟨congrArg (· + 1) hlength, ?_⟩
      intro a ha
      rcases List.mem_cons.1 ha with rfl | ha
      · exact h s
      · exact hall a ha

end JosfraPge.Foundation.Redraw
