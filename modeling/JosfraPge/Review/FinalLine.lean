import JosfraPge.Review.MergeGate

/-!
# What decides a review

The prompt asks for the result as the last line of the reviewer's answer.  The step looks for the last
line that is a result line, wherever it stands.

* `run_decideStep`: the branch a posted review leads to;
* `verdict_of_finalLine`: the verdict when the last line with anything on it is a result line;
* `onlyFinalLine_iff`: when nothing but that line decides.
-/

namespace JosfraPge.Review.FinalLine

open JosfraPge.Foundation.LineText
open JosfraPge.Foundation.RunRules
open JosfraPge.Review.MergeGate

/-! ## Branches -/

inductive Branch where
  | approve
  | changesNeeded
deriving DecidableEq

/-- `[[ "$VERDICT" == "REVIEW_RESULT: APPROVE" ]]` -/
def branchOf (verdict : Text) : Branch := if verdict = approveLine then .approve else .changesNeeded

/-- The branch a review leads to, none when the step ends without a verdict. -/
def branch (reviewText : Text) : Option Branch := (verdict reviewText).map branchOf

/-- What the step does in a branch. -/
def takeBranch (r : ReviewRun) : Branch → Step PUnit
  | .approve =>
      if MayArm r then do
        approve r
        setAutoMerge true
      else pure ⟨⟩
  | .changesNeeded => setAutoMerge false

theorem act_eq (r : ReviewRun) (v : Text) : act r v = takeBranch r (branchOf v) := by
  unfold act branchOf
  by_cases hv : v = approveLine
  · rw [if_pos hv, if_pos hv]
    rfl
  · rw [if_neg hv, if_neg hv]
    rfl

/-- Once a review is posted, nothing but its branch matters. -/
theorem run_decideStep {r : ReviewRun} {reviewText : Text} (htext : findReviewText r = .ok reviewText)
    (hcomment : r.commentSucceeds = true) (pr : PullRequest) :
    (decideStep r).run pr =
      match branch reviewText with
      | some b => (takeBranch r b).run { pr with comments := pr.comments ++ [reviewText] }
      | none => .error .noVerdict { pr with comments := pr.comments ++ [reviewText] } := by
  unfold branch
  cases hv : verdict reviewText with
  | none => rw [run_decideStep_noVerdict pr htext hcomment hv]; rfl
  | some v =>
      rw [run_decideStep_verdict pr htext hcomment hv, act_eq]
      rfl

/-! ## The last line with anything on it -/

/-- `[[:space:]]` -/
def isSpaceChar (c : Char) : Bool := c = ' ' || (9 ≤ c.toNat && c.toNat ≤ 13)

def isBlankLine (l : Text) : Bool := l.all isSpaceChar

/-- The last line of a review that is not blank. -/
def finalLine (reviewText : Text) : Option Text :=
  ((lines reviewText).filter fun l => !isBlankLine l).getLast?

def IsResultLine (l : Text) : Prop := l = approveLine ∨ l = changesLine

instance (l : Text) : Decidable (IsResultLine l) :=
  inferInstanceAs (Decidable (l = approveLine ∨ l = changesLine))

/-- The last non-blank line of a review with the blank lines behind it. -/
def FinalPart (e : Text) : Prop :=
  ∃ l rest, lines e = l :: rest ∧ isBlankLine l = false ∧ ∀ x ∈ rest, isBlankLine x = true

/-- Only the last non-blank line decides: the step approves only for it, follows it when it is a result
line, and does the same whatever lines stand in front of it. -/
structure OnlyFinalLine (reviewText : Text) : Prop where
  approves : branch reviewText = some .approve → finalLine reviewText = some approveLine
  followsApprove : finalLine reviewText = some approveLine → branch reviewText = some .approve
  followsChanges : finalLine reviewText = some changesLine → branch reviewText = some .changesNeeded
  ignores : ∀ before other e, FinalPart e → reviewText = joinLines before e →
    branch (joinLines other e) = branch reviewText

/-! ## The verdict of a review -/

/-- The newline `printf` adds makes no result line. -/
theorem resultLines_eq (reviewText : Text) :
    resultLines reviewText = (lines reviewText).filter fun l => l = approveLine || l = changesLine := by
  have hempty : approveLine ≠ [] ∧ changesLine ≠ [] := by decide
  have hlines : lines (reviewText ++ ['\n'])
      = (splitLines reviewText).1 ++ [(splitLines reviewText).2] :=
    lines_append_newline reviewText []
  rw [resultLines, hlines, lines, List.filter_append, List.filter_append]
  split
  · rename_i hrest
    rw [hrest, List.filter_cons, if_neg (by simpa using hempty)]
  · rfl

theorem isBlankLine_result {l : Text} (h : IsResultLine l) : isBlankLine l = false := by
  rcases h with rfl | rfl <;> decide

/-- A sharper filter keeps the last element if it passes. -/
theorem getLast?_filter_of_imp {α : Type} {p q : α → Bool} (hqp : ∀ a, q a = true → p a = true)
    {as : List α} {a : α} (h : (as.filter p).getLast? = some a) (ha : q a = true) :
    (as.filter q).getLast? = some a := by
  have hfilter : as.filter q = (as.filter p).filter q := by
    rw [List.filter_filter]
    apply List.filter_congr
    intro b _
    cases hq : q b with
    | false => rfl
    | true => rw [hqp b hq]; rfl
  obtain ⟨init, hinit⟩ := List.getLast?_eq_some_iff.1 h
  rw [hfilter, hinit, List.filter_append, List.filter_cons, if_pos ha]
  exact List.getLast?_concat

/-- **When the last non-blank line is a result line, it is the verdict.** -/
theorem verdict_of_finalLine {reviewText l : Text} (h : finalLine reviewText = some l)
    (hl : IsResultLine l) : verdict reviewText = some l := by
  rw [verdict, resultLines_eq]
  apply getLast?_filter_of_imp _ h
  · simpa [IsResultLine] using hl
  · intro l' hl'
    have hresult : IsResultLine l' := by
      simpa [IsResultLine] using hl'
    rw [isBlankLine_result hresult]
    rfl

theorem verdict_isResultLine {reviewText l : Text} (h : verdict reviewText = some l) :
    l ∈ lines reviewText ∧ IsResultLine l := by
  rw [verdict, resultLines_eq] at h
  obtain ⟨hmem, hresult⟩ := List.mem_filter.1 (List.mem_of_getLast? h)
  exact ⟨hmem, by simpa [IsResultLine] using hresult⟩

/-- A blank review has no verdict. -/
theorem verdict_of_blank {reviewText : Text} (h : finalLine reviewText = none) :
    verdict reviewText = none := by
  cases hv : verdict reviewText with
  | none => rfl
  | some l =>
      obtain ⟨hmem, hresult⟩ := verdict_isResultLine hv
      have hkeep : l ∈ (lines reviewText).filter fun l => !isBlankLine l := by
        rw [List.mem_filter]
        exact ⟨hmem, by rw [isBlankLine_result hresult]; rfl⟩
      rw [List.getLast?_eq_none_iff.1 h] at hkeep
      exact absurd hkeep List.not_mem_nil

/-! ## Lines in front -/

theorem finalLine_of_lines {s l : Text} {before rest : List Text} (hs : lines s = before ++ l :: rest)
    (hl : isBlankLine l = false) (hrest : ∀ x ∈ rest, isBlankLine x = true) :
    finalLine s = some l := by
  have hnone : rest.filter (fun l => !isBlankLine l) = [] := by
    rw [List.filter_eq_nil_iff]
    intro x hx
    rw [hrest x hx]
    exact Bool.false_ne_true
  rw [finalLine, hs, List.filter_append, List.filter_cons, if_pos (by rw [hl]; rfl), hnone]
  exact List.getLast?_concat

theorem exists_lines_joinLines (ls : List Text) (e : Text) :
    ∃ before, lines (joinLines ls e) = before ++ lines e := by
  induction ls with
  | nil => exact ⟨[], rfl⟩
  | cons x ls ih =>
      obtain ⟨before, hbefore⟩ := ih
      refine ⟨(splitLines x).1 ++ (splitLines x).2 :: before, ?_⟩
      rw [joinLines_cons, lines_append_newline, hbefore, List.append_assoc, List.cons_append]

/-- Lines in front do not change the last non-blank line. -/
theorem finalLine_joinLines {e : Text} (h : FinalPart e) :
    ∃ l, ∀ before, finalLine (joinLines before e) = some l := by
  obtain ⟨l, rest, hlines, hl, hrest⟩ := h
  refine ⟨l, fun before => ?_⟩
  obtain ⟨before', hbefore⟩ := exists_lines_joinLines before e
  rw [hlines] at hbefore
  exact finalLine_of_lines hbefore hl hrest

/-- A review that is not blank ends in a final part. -/
theorem exists_finalPart {s l : Text} (h : finalLine s = some l) :
    ∃ before e rest, s = joinLines before e ∧ lines e = l :: rest ∧ isBlankLine l = false ∧
      ∀ x ∈ rest, isBlankLine x = true := by
  rw [finalLine, List.getLast?_filter] at h
  obtain ⟨hl, after, before, hrev, hafter⟩ := List.find?_eq_some_iff_append.1 h
  have hlines : lines s = before.reverse ++ l :: after.reverse := by
    rw [← List.reverse_reverse (lines s), hrev, List.reverse_append, List.reverse_cons,
      List.append_assoc]
    rfl
  obtain ⟨e, he, hlines'⟩ := exists_joinLines hlines (List.cons_ne_nil _ _)
  refine ⟨before.reverse, e, after.reverse, he, hlines', by simpa using hl, ?_⟩
  intro x hx
  simpa using hafter x (List.mem_reverse.1 hx)

/-! ## When only the last line decides -/

theorem onlyFinalLine_of_blank {s : Text} (h : finalLine s = none) : OnlyFinalLine s := by
  have hnone : branch s = none := by
    rw [branch, verdict_of_blank h]
    rfl
  constructor
  · intro hb
    rw [hnone] at hb
    exact absurd hb (by simp)
  · intro hfinal
    rw [h] at hfinal
    exact absurd hfinal (by simp)
  · intro hfinal
    rw [h] at hfinal
    exact absurd hfinal (by simp)
  · intro before other e he hs
    obtain ⟨l, hl⟩ := finalLine_joinLines he
    rw [hs, hl before] at h
    exact absurd h (by simp)

theorem onlyFinalLine_of_result {s l : Text} (h : finalLine s = some l) (hl : IsResultLine l) :
    OnlyFinalLine s := by
  have hbranch : branch s = some (branchOf l) := by
    rw [branch, verdict_of_finalLine h hl]
    rfl
  have happrove : branchOf approveLine = .approve := if_pos rfl
  have hchanges : branchOf changesLine = .changesNeeded := if_neg (by decide)
  constructor
  · intro hb
    rcases hl with rfl | rfl
    · exact h
    · rw [hbranch, hchanges] at hb
      exact absurd hb (by decide)
  · intro hfinal
    obtain rfl := Option.some.inj (h.symm.trans hfinal)
    rw [hbranch, happrove]
  · intro hfinal
    obtain rfl := Option.some.inj (h.symm.trans hfinal)
    rw [hbranch, hchanges]
  · intro before other e he hs
    obtain ⟨l', hl'⟩ := finalLine_joinLines he
    have hsame : l' = l := by
      rw [hs, hl' before] at h
      exact Option.some.inj h
    rw [hbranch, branch, verdict_of_finalLine (hl' other) (hsame ▸ hl), hsame]
    rfl

/-- A last line that is no result line leaves the decision to the lines in front of it. -/
theorem not_onlyFinalLine {s l : Text} (h : finalLine s = some l) (hl : ¬ IsResultLine l) :
    ¬ OnlyFinalLine s := by
  intro honly
  obtain ⟨before, e, rest, hs, hlines, hblank, hrest⟩ := exists_finalPart h
  have he : FinalPart e := ⟨l, rest, hlines, hblank, hrest⟩
  -- an approving line in front, whatever was there before
  have hfinal : finalLine (joinLines [approveLine] e) = some l := by
    have hbefore : lines (joinLines [approveLine] e) = [approveLine] ++ l :: rest := by
      rw [lines_joinLines (by decide), hlines]
    exact finalLine_of_lines hbefore hblank hrest
  have hresults : ∀ x ∈ l :: rest, ¬ IsResultLine x := by
    intro x hx hresult
    rcases List.mem_cons.1 hx with rfl | hx
    · exact hl hresult
    · have hblank' := hrest x hx
      rw [isBlankLine_result hresult] at hblank'
      exact Bool.noConfusion hblank'
  have hnone : (l :: rest).filter (fun l => l = approveLine || l = changesLine) = [] := by
    rw [List.filter_eq_nil_iff]
    intro x hx
    simpa [IsResultLine] using hresults x hx
  have happrove : verdict (joinLines [approveLine] e) = some approveLine := by
    rw [verdict, resultLines_eq, lines_joinLines (by decide), hlines, List.filter_append, hnone]
    rfl
  have hverdict : branch (joinLines [approveLine] e) = some .approve := by
    rw [branch, happrove]
    rfl
  have hbranch : branch s = some .approve :=
    (honly.ignores before [approveLine] e he hs).symm.trans hverdict
  have hline := honly.approves hbranch
  rw [h] at hline
  exact hl (Or.inl (Option.some.inj hline))

/-- **Exactly when only the last non-blank line decides**: it is a result line, or there is none. -/
theorem onlyFinalLine_iff (reviewText : Text) :
    OnlyFinalLine reviewText ↔ ∀ l ∈ finalLine reviewText, IsResultLine l := by
  cases h : finalLine reviewText with
  | none => exact ⟨fun _ l hl => absurd hl (by simp), fun _ => onlyFinalLine_of_blank h⟩
  | some l =>
      constructor
      · intro honly l' hl'
        obtain rfl := Option.some.inj hl'
        by_contra hresult
        exact not_onlyFinalLine h hresult honly
      · intro hresult
        exact onlyFinalLine_of_result h (hresult l rfl)

/-- A review that quotes an approving line of the diff and decorates its own result. -/
def quotingReview : Text :=
  "The diff adds this line:\nREVIEW_RESULT: APPROVE\n**REVIEW_RESULT: CHANGES_NEEDED**".toList

theorem onlyFinalLine_fails_quoted :
    branch quotingReview = some .approve ∧
      finalLine quotingReview = some "**REVIEW_RESULT: CHANGES_NEEDED**".toList ∧
      ¬ OnlyFinalLine quotingReview := by
  have hbranch : branch quotingReview = some .approve := by decide
  have hfinal : finalLine quotingReview = some "**REVIEW_RESULT: CHANGES_NEEDED**".toList := by
    decide
  refine ⟨hbranch, hfinal, ?_⟩
  intro honly
  have hline := hfinal.symm.trans (honly.approves hbranch)
  exact absurd (Option.some.inj hline) (by decide)

end JosfraPge.Review.FinalLine
