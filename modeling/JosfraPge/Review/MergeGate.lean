import JosfraPge.Foundation.LineText
import JosfraPge.Foundation.RunRules

/-!
# The decide step of the review workflow

The step reads the reviewer's final answer, posts it, takes its last result line as the verdict, and
arms or disarms auto-merge.  Under `set -euo pipefail` a failing command ends the step, also one in the
pipeline that extracts the verdict; `gh pr merge --auto` arms and `--disable-auto` disarms.

* `autoMerge_afterRun`: the one way each kind of run ends;
* `armedOnlyIfApproved_iff`: which runs can end with auto-merge armed for no good reason;
* `failsClosed_iff`: when a whole history of runs keeps the gate closed.
-/

namespace JosfraPge.Review.MergeGate

open JosfraPge.Foundation.LineText
open JosfraPge.Foundation.RunRules

/-! ## The step -/

/-- What one run of the step meets: whether the result file is there, what `jq` prints of it unless
it fails, which `gh` commands succeed, and the settings. -/
structure ReviewRun where
  resultFile : Bool
  jqOutput : Option Text
  commentSucceeds : Bool
  approveSucceeds : Bool
  autoMergeEnabled : Text
  authorAssociation : Text

/-- What the step changes about a pull request. -/
structure PullRequest where
  comments : List Text
  approvals : ℕ
  autoMerge : Bool

/-- The command that ends a run early. -/
inductive Abort where
  | noResultFile
  | jqFailed
  | emptyReview
  | commentFailed
  /-- `grep` finds no result line, which fails the pipeline. -/
  | noVerdict
deriving DecidableEq

abbrev Step := EStateM Abort PullRequest

def approveLine : Text := "REVIEW_RESULT: APPROVE".toList

def changesLine : Text := "REVIEW_RESULT: CHANGES_NEEDED".toList

/-- The lines `grep -E '^REVIEW_RESULT: (APPROVE|CHANGES_NEEDED)$'` keeps. -/
def resultLines (reviewText : Text) : List Text :=
  (lines (reviewText ++ ['\n'])).filter fun l => l = approveLine || l = changesLine

/-- `VERDICT` -/
def verdict (reviewText : Text) : Option Text := (resultLines reviewText).getLast?

/-- `^(OWNER|MEMBER|COLLABORATOR)$` -/
def trusted (authorAssociation : Text) : Bool :=
  ["OWNER".toList, "MEMBER".toList, "COLLABORATOR".toList].contains authorAssociation

/-- `REVIEW_TEXT` -/
def findReviewText (r : ReviewRun) : Except Abort Text :=
  if r.resultFile then
    match r.jqOutput with
    | some output =>
        let reviewText := dropTrailingNewlines output
        if reviewText = [] then .error .emptyReview else .ok reviewText
    | none => .error .jqFailed
  else .error .noResultFile

/-- `gh pr comment` -/
def postComment (r : ReviewRun) (body : Text) : Step PUnit :=
  if r.commentSucceeds then modify fun pr => { pr with comments := pr.comments ++ [body] }
  else throw .commentFailed

def requireVerdict (reviewText : Text) : Except Abort Text :=
  (verdict reviewText).elim (.error .noVerdict) .ok

/-- `gh pr review --approve`; when it fails, the step only says so. -/
def approve (r : ReviewRun) : Step PUnit :=
  modify fun pr => if r.approveSucceeds then { pr with approvals := pr.approvals + 1 } else pr

/-- `gh pr merge --auto` or `--disable-auto` -/
def setAutoMerge (armed : Bool) : Step PUnit := modify fun pr => { pr with autoMerge := armed }

/-- The run may arm auto-merge if its verdict allows it. -/
def MayArm (r : ReviewRun) : Prop :=
  r.autoMergeEnabled = "true".toList ∧ trusted r.authorAssociation = true

instance (r : ReviewRun) : Decidable (MayArm r) :=
  inferInstanceAs (Decidable (r.autoMergeEnabled = "true".toList ∧ trusted r.authorAssociation = true))

/-- The branches on the verdict. -/
def act (r : ReviewRun) (verdict : Text) : Step PUnit := do
  if verdict = approveLine then
    if MayArm r then
      approve r
      setAutoMerge true
    else pure ⟨⟩
  else setAutoMerge false

/-- `Post review comment and decide` -/
def decideStep (r : ReviewRun) : Step PUnit := do
  let reviewText ← ofExcept (findReviewText r)
  postComment r reviewText
  let verdict ← ofExcept (requireVerdict reviewText)
  act r verdict

/-- The pull request after a run, however the run ends. -/
def afterRun (pr : PullRequest) (r : ReviewRun) : PullRequest :=
  match (decideStep r).run pr with
  | .ok _ pr' => pr'
  | .error _ pr' => pr'

/-! ## What one run does -/

/-- The verdict of a run that gets as far as having one. -/
def runVerdict (r : ReviewRun) : Option Text :=
  match findReviewText r with
  | .ok reviewText => if r.commentSucceeds then verdict reviewText else none
  | .error _ => none

/-- The run approved, with auto-merge enabled and a trusted author. -/
def Approved (r : ReviewRun) : Prop := runVerdict r = some approveLine ∧ MayArm r

/-- The run asked for changes. -/
def ChangesNeeded (r : ReviewRun) : Prop := ∃ v, runVerdict r = some v ∧ v ≠ approveLine

instance (r : ReviewRun) : Decidable (Approved r) :=
  inferInstanceAs (Decidable (runVerdict r = some approveLine ∧ MayArm r))

section Steps

variable {r : ReviewRun} {reviewText v : Text} (pr : PullRequest)

theorem run_postComment (hcomment : r.commentSucceeds = true) (body : Text) :
    (postComment r body).run pr = .ok ⟨⟩ { pr with comments := pr.comments ++ [body] } := by
  rw [postComment, if_pos hcomment]
  rfl

/-- Once a review is posted its verdict decides. -/
theorem run_decideStep_verdict (htext : findReviewText r = .ok reviewText)
    (hcomment : r.commentSucceeds = true) (hv : verdict reviewText = some v) :
    (decideStep r).run pr = (act r v).run { pr with comments := pr.comments ++ [reviewText] } := by
  have hsome : requireVerdict reviewText = .ok v := by
    rw [requireVerdict, hv]
    rfl
  rw [decideStep, run_ofExcept_ok htext, run_bind_ok (run_postComment pr hcomment reviewText),
    run_ofExcept_ok hsome]

theorem run_decideStep_noVerdict (htext : findReviewText r = .ok reviewText)
    (hcomment : r.commentSucceeds = true) (hv : verdict reviewText = none) :
    (decideStep r).run pr
      = .error .noVerdict { pr with comments := pr.comments ++ [reviewText] } := by
  have hnone : requireVerdict reviewText = .error .noVerdict := by
    rw [requireVerdict, hv]
    rfl
  rw [decideStep, run_ofExcept_ok htext, run_bind_ok (run_postComment pr hcomment reviewText),
    run_ofExcept_error hnone]

/-- The branches never fail.  An approval arms auto-merge or leaves it, any other verdict disarms it. -/
theorem run_act (r : ReviewRun) (v : Text) :
    ∃ pr', (act r v).run pr = .ok ⟨⟩ pr' ∧
      (pr'.autoMerge = true ↔ v = approveLine ∧ (MayArm r ∨ pr.autoMerge = true)) := by
  unfold act
  by_cases happrove : v = approveLine
  · by_cases hmay : MayArm r
    · rw [if_pos happrove, if_pos hmay]
      exact ⟨_, rfl, fun _ => ⟨happrove, Or.inl hmay⟩, fun _ => rfl⟩
    · rw [if_pos happrove, if_neg hmay]
      exact ⟨pr, rfl, fun h => ⟨happrove, Or.inr h⟩, fun h => h.2.resolve_left hmay⟩
  · rw [if_neg happrove]
    exact ⟨_, rfl, fun h => Bool.noConfusion h, fun h => absurd h.1 happrove⟩

theorem autoMerge_of_verdict (h : runVerdict r = some v) :
    (afterRun pr r).autoMerge = true ↔ v = approveLine ∧ (MayArm r ∨ pr.autoMerge = true) := by
  unfold runVerdict at h
  split at h
  · rename_i reviewText htext
    split at h
    · rename_i hcomment
      obtain ⟨pr', hact, hiff⟩ := run_act { pr with comments := pr.comments ++ [reviewText] } r v
      rw [afterRun, run_decideStep_verdict pr htext hcomment h, hact]
      exact hiff
    · exact absurd h (by simp)
  · exact absurd h (by simp)

/-- A run that gets no verdict leaves auto-merge alone. -/
theorem autoMerge_of_noVerdict (h : runVerdict r = none) :
    (afterRun pr r).autoMerge = pr.autoMerge := by
  unfold runVerdict at h
  split at h
  · rename_i reviewText htext
    split at h
    · rename_i hcomment
      rw [afterRun, run_decideStep_noVerdict pr htext hcomment h]
    · rename_i hcomment
      have hpost : (postComment r reviewText).run pr = .error .commentFailed pr := by
        rw [postComment, if_neg hcomment]
        rfl
      rw [afterRun, decideStep, run_ofExcept_ok htext, run_bind_error hpost]
  · rename_i e htext
    rw [afterRun, decideStep, run_ofExcept_error htext]

end Steps

/-- **After a run auto-merge is armed when the run approved, disarmed when it asked for changes, and
as it was before otherwise.** -/
theorem autoMerge_afterRun (pr : PullRequest) (r : ReviewRun) :
    (afterRun pr r).autoMerge = true ↔
      Approved r ∨ (pr.autoMerge = true ∧ ¬ ChangesNeeded r) := by
  unfold Approved ChangesNeeded
  cases hv : runVerdict r with
  | none =>
      rw [autoMerge_of_noVerdict pr hv]
      simp
  | some v =>
      rw [autoMerge_of_verdict pr hv]
      have hchanges : (∃ w, some v = some w ∧ w ≠ approveLine) ↔ v ≠ approveLine := by
        simp
      have hverdict : some v = some approveLine ↔ v = approveLine := Option.some_inj
      rw [hchanges, hverdict, not_not, and_or_left, and_comm (a := pr.autoMerge = true)]

/-! ## Histories of runs -/

/-- The pull request after a sequence of runs. -/
def runHistory (history : List ReviewRun) (pr : PullRequest) : PullRequest := history.foldl afterRun pr

/-- After every run that has ended, auto-merge is armed only if that very run approved. -/
def FailsClosed (history : List ReviewRun) (pr : PullRequest) : Prop :=
  ∀ before r after, history = before ++ r :: after →
    (runHistory (before ++ [r]) pr).autoMerge = true → Approved r

/-- The run gets to a verdict, and may arm auto-merge if that is to approve. -/
def Decides (r : ReviewRun) : Prop := Approved r ∨ ChangesNeeded r

/-- The step: only a run that does not decide can leave auto-merge armed without approving, and only
when it finds it armed. -/
theorem armedOnlyIfApproved_iff (pr : PullRequest) (r : ReviewRun) :
    ((afterRun pr r).autoMerge = true → Approved r) ↔ (pr.autoMerge = true → Decides r) := by
  rw [autoMerge_afterRun]
  unfold Decides
  constructor
  · intro h harmed
    by_cases hchanges : ChangesNeeded r
    · exact Or.inr hchanges
    · exact Or.inl (h (Or.inr ⟨harmed, hchanges⟩))
  · intro h hafter
    rcases hafter with happroved | ⟨harmed, hchanges⟩
    · exact happroved
    · exact (h harmed).resolve_right hchanges

theorem failsClosed_nil (pr : PullRequest) : FailsClosed [] pr := by
  intro before r after h
  exact absurd h (by simp)

theorem failsClosed_cons (pr : PullRequest) (r : ReviewRun) (history : List ReviewRun) :
    FailsClosed (r :: history) pr ↔
      ((afterRun pr r).autoMerge = true → Approved r) ∧ FailsClosed history (afterRun pr r) := by
  constructor
  · intro h
    constructor
    · exact h [] r history rfl
    · intro before s after hsplit
      exact h (r :: before) s after (by rw [hsplit]; rfl)
  · intro h before s after hsplit
    obtain ⟨hfirst, hrest⟩ := h
    cases before with
    | nil =>
        injection hsplit with hr _
        subst hr
        exact hfirst
    | cons r' before =>
        injection hsplit with hr hsplit
        subst hr
        exact hrest before s after hsplit

/-- **The gate fails closed over a history exactly when a run that approved is never followed by one
that does not decide**, counting a pull request armed beforehand as approved. -/
theorem failsClosed_iff (history : List ReviewRun) (pr : PullRequest) :
    FailsClosed history pr ↔
      (∀ r ∈ history.head?, pr.autoMerge = true → Decides r) ∧
        history.IsChain fun r s => Approved r → Decides s := by
  induction history generalizing pr with
  | nil => exact ⟨fun _ => ⟨fun r hr => absurd hr (by simp), List.isChain_nil⟩, fun _ => failsClosed_nil pr⟩
  | cons r history ih =>
      rw [failsClosed_cons, armedOnlyIfApproved_iff, ih, List.isChain_cons]
      have hhead : (∀ s ∈ (r :: history).head?, pr.autoMerge = true → Decides s) ↔
          (pr.autoMerge = true → Decides r) := by
        simp
      rw [hhead]
      constructor
      · intro h
        obtain ⟨hfirst, hnext, hchain⟩ := h
        refine ⟨hfirst, ?_, hchain⟩
        intro s hs happroved
        exact hnext s hs ((autoMerge_afterRun pr r).mpr (Or.inl happroved))
      · intro h
        obtain ⟨hfirst, hnext, hchain⟩ := h
        refine ⟨hfirst, ?_, hchain⟩
        intro s hs harmed
        exact hnext s hs ((armedOnlyIfApproved_iff pr r).mpr hfirst harmed)

/-! ### A history that leaves the gate open -/

/-- A run that approves. -/
def approvingRun : ReviewRun where
  resultFile := true
  jqOutput := some "No blocking issues.\nREVIEW_RESULT: APPROVE\n".toList
  commentSucceeds := true
  approveSucceeds := true
  autoMergeEnabled := "true".toList
  authorAssociation := "OWNER".toList

/-- A run whose reviewer left no result file. -/
def crashedRun : ReviewRun := { approvingRun with resultFile := false, jqOutput := none }

/-- The run for a later push finds no result file, and auto-merge stays armed from the run before. -/
theorem failsClosed_fails_crash :
    ¬ ∀ history : List ReviewRun, FailsClosed history { comments := [], approvals := 0, autoMerge := false } := by
  intro h
  have hafter := h [approvingRun, crashedRun] [approvingRun] crashedRun [] rfl
  have harmed : (runHistory ([approvingRun] ++ [crashedRun])
      { comments := [], approvals := 0, autoMerge := false }).autoMerge = true := by
    decide
  exact absurd (hafter harmed) (by decide)

end JosfraPge.Review.MergeGate
