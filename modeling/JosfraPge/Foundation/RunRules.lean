import JosfraPge.Foundation.LineText

/-!
# Rules for programs that can fail

* `except_bind_ok`, `except_bind_eq`: sequences that have no state;
* `mem_mapM`, `mem_mapM_of_mem`: lists of programs that have none;
* `run_bind_ok`, `run_bind_error`, `run_bind_inv`: sequences with a state that a failure leaves as it
  found it;
* `run_ofExcept_ok`, `run_ofExcept_error`, `run_ofExcept_inv`: results as steps.
-/

namespace JosfraPge.Foundation.RunRules

/-! ### Without a state -/

section Stateless

variable {ε α β : Type} {x : Except ε α} {f : α → Except ε β}

theorem except_bind_ok {b : β} (h : (x >>= f) = .ok b) : ∃ a, x = .ok a ∧ f a = .ok b := by
  cases x with
  | error e => exact absurd h (by simp [Bind.bind, Except.bind])
  | ok a => exact ⟨a, rfl, h⟩

theorem except_bind_eq {a : α} (h : x = .ok a) : (x >>= f) = f a := by
  rw [h]
  rfl

theorem except_bind_error {e : ε} (h : x = .error e) : (x >>= f) = .error e := by
  rw [h]
  rfl

/-- Every result of a list of programs comes from one of them. -/
theorem mem_mapM {g : α → Option β} {as : List α} {bs : List β} (h : as.mapM g = some bs) {b : β}
    (hb : b ∈ bs) : ∃ a ∈ as, g a = some b := by
  induction as generalizing bs with
  | nil =>
      obtain rfl := Option.some.inj h
      exact absurd hb List.not_mem_nil
  | cons a as ih =>
      rw [List.mapM_cons] at h
      obtain ⟨b', hb', h⟩ := Option.bind_eq_some_iff.mp h
      obtain ⟨bs', hbs', h⟩ := Option.bind_eq_some_iff.mp h
      obtain rfl := Option.some.inj h
      rcases List.mem_cons.mp hb with rfl | hb
      · exact ⟨a, List.mem_cons_self, hb'⟩
      · obtain ⟨a', ha', hg⟩ := ih hbs' hb
        exact ⟨a', List.mem_cons_of_mem a ha', hg⟩

/-- Each of them has its result among the results. -/
theorem mem_mapM_of_mem {g : α → Option β} {as : List α} {bs : List β} (h : as.mapM g = some bs) {a : α}
    (ha : a ∈ as) : ∃ b ∈ bs, g a = some b := by
  induction as generalizing bs with
  | nil => exact absurd ha List.not_mem_nil
  | cons a' as ih =>
      rw [List.mapM_cons] at h
      obtain ⟨b', hb', h⟩ := Option.bind_eq_some_iff.mp h
      obtain ⟨bs', hbs', h⟩ := Option.bind_eq_some_iff.mp h
      obtain rfl := Option.some.inj h
      rcases List.mem_cons.mp ha with rfl | ha
      · exact ⟨b', List.mem_cons_self, hb'⟩
      · obtain ⟨b, hb, hg⟩ := ih hbs' ha
        exact ⟨b, List.mem_cons_of_mem b' hb, hg⟩

end Stateless

/-! ### With a state -/

section Stateful

variable {ε σ α β : Type}

theorem run_bind_ok {x : EStateM ε σ α} {f : α → EStateM ε σ β} {a : α} {s t : σ}
    (h : x.run s = .ok a t) : (x >>= f).run s = (f a).run t := by
  show EStateM.bind x f s = f a t
  have hx : x s = .ok a t := h
  rw [EStateM.bind, hx]

theorem run_bind_error {x : EStateM ε σ α} {f : α → EStateM ε σ β} {e : ε} {s t : σ}
    (h : x.run s = .error e t) : (x >>= f).run s = .error e t := by
  show EStateM.bind x f s = .error e t
  have hx : x s = .error e t := h
  rw [EStateM.bind, hx]

/-- A sequence that completes has completed each of its steps. -/
theorem run_bind_inv {x : EStateM ε σ α} {f : α → EStateM ε σ β} {b : β} {s u : σ}
    (h : (x >>= f).run s = .ok b u) : ∃ a t, x.run s = .ok a t ∧ (f a).run t = .ok b u := by
  cases hx : x.run s with
  | error e t => exact absurd ((run_bind_error hx).symm.trans h) (by simp)
  | ok a t => exact ⟨a, t, rfl, (run_bind_ok hx).symm.trans h⟩

/-- A result as a step of a program leaves the state alone. -/
theorem run_ofExcept_ok {x : Except ε α} {f : α → EStateM ε σ β} {a : α} (h : x = .ok a) (s : σ) :
    (ofExcept x >>= f).run s = (f a).run s := by
  apply run_bind_ok
  rw [h]
  rfl

theorem run_ofExcept_error {x : Except ε α} {f : α → EStateM ε σ β} {e : ε} (h : x = .error e)
    (s : σ) : (ofExcept x >>= f).run s = .error e s := by
  apply run_bind_error
  rw [h]
  rfl

/-- A program that completes had every result it asked for. -/
theorem run_ofExcept_inv {x : Except ε α} {f : α → EStateM ε σ β} {b : β} {s t : σ}
    (h : (ofExcept x >>= f).run s = .ok b t) : ∃ a, x = .ok a ∧ (f a).run s = .ok b t := by
  cases x with
  | error e =>
      have herror := run_ofExcept_error (f := f) (rfl : Except.error e = .error e) s
      exact absurd (herror.symm.trans h) (by simp)
  | ok a => exact ⟨a, rfl, (run_ofExcept_ok rfl s).symm.trans h⟩

end Stateful

end JosfraPge.Foundation.RunRules
