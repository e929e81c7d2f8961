import JosfraPge.Foundation.LineText

/-!
# Delimited fields and the edit of the first one

A field is an opening literal `op`, a value free of the character `d`, and a closing literal that
begins with `d`.  Since the value stops at the first `d`, a field is determined by where its opening
literal starts (`field?_eq_some`).

* `replaceField_spec`: what the edit of the leftmost field of a line does;
* `lineEdit_skip`, `lineEdit_field`: the same edit on every line of a text, stretch by stretch.
-/

namespace JosfraPge.Foundation.DelimitedField

open JosfraPge.Foundation.LineText

variable (op : Text) (d : Char) (cl : Text)

/-- The field at the start of a text: its value and what follows it. -/
def field? (s : Text) : Option (Text × Text) :=
  if op <+: s ∧ (d :: cl) <+: (s.drop op.length).dropWhile (· != d) then
    some ((s.drop op.length).takeWhile (· != d),
      ((s.drop op.length).dropWhile (· != d)).drop (d :: cl).length)
  else none

/-- `s` starts with a field of value `t`, and goes on as `b`. -/
structure FieldAt (s t b : Text) : Prop where
  shape : s = op ++ (t ++ (d :: cl ++ b))
  value : d ∉ t

variable {op d cl}

theorem takeWhile_field {t r : Text} (ht : d ∉ t) :
    (t ++ d :: r).takeWhile (· != d) = t ∧ (t ++ d :: r).dropWhile (· != d) = d :: r := by
  have hall : ∀ c ∈ t, (c != d) = true := by
    intro c hc
    exact bne_iff_ne.mpr fun h => ht (h ▸ hc)
  constructor
  · rw [List.takeWhile_append_of_pos hall, List.takeWhile_cons_of_neg (by simp), List.append_nil]
  · rw [List.dropWhile_append_of_pos hall, List.dropWhile_cons_of_neg (by simp)]

theorem field?_eq_some {s t b : Text} :
    field? op d cl s = some (t, b) ↔ FieldAt op d cl s t b := by
  constructor
  · intro h
    unfold field? at h
    split at h
    · rename_i hp
      obtain ⟨⟨r, rfl⟩, hcl⟩ := hp
      rw [List.drop_left] at h hcl
      obtain ⟨b', hb'⟩ := hcl
      rw [← hb', List.drop_left] at h
      obtain ⟨rfl, rfl⟩ := Prod.mk.inj (Option.some.inj h)
      refine ⟨?_, fun hmem => ?_⟩
      · rw [hb', List.takeWhile_append_dropWhile]
      · simpa using List.mem_takeWhile_imp hmem
    · exact absurd h (by simp)
  · rintro ⟨rfl, ht⟩
    have hw := takeWhile_field (r := cl ++ b) ht
    have hr : t ++ (d :: cl ++ b) = t ++ d :: (cl ++ b) := rfl
    unfold field?
    rw [List.drop_left, hr, hw.1, hw.2, if_pos ⟨List.prefix_append _ _, b, rfl⟩]
    simp

theorem field?_nil : field? op d cl [] = none := by
  unfold field?
  rw [if_neg]
  rintro ⟨-, h⟩
  simp at h

variable (op d cl)

/-- Rewrite the value of the leftmost field to `v`. -/
def replaceField (v : Text) : Text → Text
  | [] => []
  | c :: s =>
      match field? op d cl (c :: s) with
      | some (_, b) => op ++ (v ++ (d :: cl ++ b))
      | none => c :: replaceField v s

/-- The leftmost field of `s` starts after `a`, has value `t` and goes on as `b`. -/
structure FirstField (s a t b : Text) : Prop where
  shape : s = a ++ (op ++ (t ++ (d :: cl ++ b)))
  value : d ∉ t
  first : ∀ a' t' b', s = a' ++ (op ++ (t' ++ (d :: cl ++ b'))) → d ∉ t' → a.length ≤ a'.length

/-- A text with a field has a leftmost one, which is the one `replaceField` rewrites; a text
without a field is left alone. -/
theorem replaceField_spec (v s : Text) :
    (∃ a t b, FirstField op d cl s a t b ∧
        replaceField op d cl v s = a ++ (op ++ (v ++ (d :: cl ++ b)))) ∨
      ((∀ a t b, s = a ++ (op ++ (t ++ (d :: cl ++ b))) → d ∈ t) ∧
        replaceField op d cl v s = s) := by
  induction s with
  | nil =>
      refine Or.inr ⟨fun a t b h => ?_, rfl⟩
      have hlen := congrArg List.length h
      simp at hlen
  | cons c cs ih =>
      cases hf : field? op d cl (c :: cs) with
      | some p =>
          obtain ⟨t, b⟩ := p
          have hat := field?_eq_some.mp hf
          refine Or.inl ⟨[], t, b, ⟨hat.shape, hat.value, fun _ _ _ _ _ => Nat.zero_le _⟩, ?_⟩
          simp [replaceField, hf]
      | none =>
          -- no field starts here, so every field of `c :: cs` is one of `cs`
          have hne : ∀ a t b, c :: cs = a ++ (op ++ (t ++ (d :: cl ++ b))) → d ∉ t →
              ∃ a', a = c :: a' ∧ cs = a' ++ (op ++ (t ++ (d :: cl ++ b))) := by
            intro a t b hs ht
            cases a with
            | nil =>
                have := field?_eq_some.mpr ⟨hs, ht⟩
                rw [hf] at this
                exact absurd this (by simp)
            | cons x a' =>
                obtain ⟨rfl, hcs⟩ := List.cons.inj hs
                exact ⟨a', rfl, hcs⟩
          have hstep : replaceField op d cl v (c :: cs) = c :: replaceField op d cl v cs := by
            simp only [replaceField, hf]
          rcases ih with ⟨a, t, b, hfirst, hrep⟩ | ⟨habs, hrep⟩
          · refine Or.inl ⟨c :: a, t, b, ⟨?_, hfirst.value, ?_⟩, ?_⟩
            · rw [List.cons_append, ← hfirst.shape]
            · intro a' t' b' hs ht
              obtain ⟨a'', rfl, hcs⟩ := hne a' t' b' hs ht
              simpa using hfirst.first a'' t' b' hcs ht
            · rw [hstep, hrep]
              rfl
          · refine Or.inr ⟨fun a t b hs => ?_, ?_⟩
            · by_contra ht
              obtain ⟨a', rfl, hcs⟩ := hne a t b hs ht
              exact ht (habs a' t b hcs)
            · rw [hstep, hrep]

variable {op d cl}

/-- `replaceField` leaves a line without the opening literal alone. -/
theorem replaceField_of_not_occurs {v s : Text} (h : ¬ Occurs op s) :
    replaceField op d cl v s = s := by
  rcases replaceField_spec op d cl v s with ⟨a, t, b, hfirst, -⟩ | ⟨-, hrep⟩
  · exact absurd ⟨a, t ++ (d :: cl ++ b), by rw [hfirst.shape, List.append_assoc]⟩ h
  · exact hrep

/-! ## The edit on a text of several lines -/

section LineEdit

variable (op d cl) (v : Text)

/-- The edit of every line, from a place where the current line still awaits its substitution
(`fresh`) or has had it. -/
def lineEdit (fresh : Bool) (s : Text) : Text :=
  (if fresh then replaceField op d cl v (firstLine s) else firstLine s) ++
    restLines (replaceField op d cl v) s

theorem lineEdit_fresh (s : Text) :
    lineEdit op d cl v true s = mapLines (replaceField op d cl v) s := by
  rw [mapLines_firstLine rfl]
  rfl

theorem lineEdit_nil (fresh : Bool) : lineEdit op d cl v fresh [] = [] := by
  cases fresh <;> rfl

/-- A newline gives the next line its substitution. -/
theorem lineEdit_newline (fresh : Bool) (s : Text) :
    lineEdit op d cl v fresh ('\n' :: s) = '\n' :: lineEdit op d cl v true s := by
  rw [lineEdit_fresh]
  cases fresh <;> rfl

/-- A character where no field starts is copied. -/
theorem lineEdit_cons {c : Char} {s : Text} (hc : c ≠ '\n') (hno : ¬ op <+: c :: s) (fresh : Bool) :
    lineEdit op d cl v fresh (c :: s) = c :: lineEdit op d cl v fresh s := by
  have hnewline : '\n' ∉ [c] := by
    simpa using hc.symm
  have hline : firstLine (c :: s) = c :: firstLine s := firstLine_append hnewline s
  have hrest := restLines_append (replaceField op d cl v) hnewline s
  rw [List.singleton_append] at hrest
  have hfield : field? op d cl (c :: firstLine s) = none := by
    unfold field?
    rw [if_neg]
    intro h
    exact hno (h.1.trans (List.prefix_cons_inj c |>.mpr (List.takeWhile_prefix _)))
  unfold lineEdit
  rw [hrest, hline]
  cases fresh with
  | true => simp only [if_true, replaceField, hfield, List.cons_append]
  | false => simp

/-- No opening literal starts inside `w` when `s` follows. -/
def NoStart (w s : Text) : Prop := ∀ a b, w = a ++ b → b ≠ [] → ¬ op <+: b ++ s

variable {op}

theorem lineEdit_skip {w s : Text} (hno : NoStart op w s) (fresh : Bool) :
    lineEdit op d cl v fresh (w ++ s)
      = w ++ lineEdit op d cl v (fresh || decide ('\n' ∈ w)) s := by
  induction w generalizing fresh with
  | nil => simp
  | cons c w ih =>
      have htail : NoStart op w s := by
        intro a b hw hb
        exact hno (c :: a) b (by rw [hw]; rfl) hb
      rw [List.cons_append]
      by_cases hc : c = '\n'
      · subst hc
        rw [lineEdit_newline, ih htail]
        simp
      · have hne : '\n' ≠ c := fun h => hc h.symm
        have hhere : ¬ op <+: c :: (w ++ s) := hno [] (c :: w) rfl (by simp)
        rw [lineEdit_cons op d cl v hc hhere, ih htail]
        simp [hne]

variable {d cl}

/-- A field of the current line has its value replaced. -/
theorem lineEdit_field {t : Text} (hop : '\n' ∉ op) (hcl : '\n' ∉ d :: cl) (ht : d ∉ t)
    (hline : '\n' ∉ t) (s : Text) :
    lineEdit op d cl v true (op ++ (t ++ (d :: cl ++ s)))
      = op ++ (v ++ (d :: cl ++ lineEdit op d cl v false s)) := by
  have hrep : ∀ b, replaceField op d cl v (op ++ (t ++ (d :: cl ++ b))) = op ++ (v ++ (d :: cl ++ b)) := by
    intro b
    have hfield := field?_eq_some.mpr (⟨rfl, ht⟩ : FieldAt op d cl (op ++ (t ++ (d :: cl ++ b))) t b)
    cases hs : op ++ (t ++ (d :: cl ++ b)) with
    | nil => simp at hs
    | cons c s =>
        rw [hs] at hfield
        simp only [replaceField, hfield]
  unfold lineEdit
  rw [firstLine_append hop, firstLine_append hline, firstLine_append hcl, restLines_append _ hop,
    restLines_append _ hline, restLines_append _ hcl, if_pos rfl, hrep]
  simp

end LineEdit

end JosfraPge.Foundation.DelimitedField
