import JosfraPge.Review.Workflow

/-!
# Review runs that come to their end

A run that nothing cancels does what the decide step alone does, however the runs of other pull requests
interleave with it.

* `hasEnded_of_six_le`: every run ends;
* `leftAlone`: a run that comes to its end does what `MergeGate.decideStep` does;
* `afterEvents_history`: without cancellations a pull request has a history of decide steps.
-/

namespace JosfraPge.Review.Uncancelled

open JosfraPge.Foundation.LineText
open JosfraPge.Foundation.RunRules
open JosfraPge.Foundation.Superseding
open JosfraPge.Review.MergeGate
open JosfraPge.Review.Workflow

/-- The run as the decide step sees it; there is no result without the steps before. -/
def decided (r : JobRun) : ReviewRun :=
  { r.decision with resultFile := r.prepared && r.decision.resultFile }

section LeftAlone

variable (r : JobRun)

/-- The commands a run can still carry out. -/
def commandsLeft : Phase → ℕ
  | .prepare => 6
  | .find => 5
  | .post _ => 4
  | .judge _ => 3
  | .approve => 2
  | .arm | .disarm => 1
  | .ended => 0

theorem commandsLeft_branch (d : ReviewRun) (v : Text) : commandsLeft (branch d v) ≤ 2 := by
  unfold branch
  split_ifs <;> decide

/-- Every command brings a run closer to its end. -/
theorem commandsLeft_command (phase : Phase) (pr : PullRequest) :
    commandsLeft (command r phase pr).1 ≤ commandsLeft phase - 1 := by
  cases phase with
  | prepare =>
      by_cases hprepared : r.prepared = true
      · rw [command_prepare_ok pr hprepared]
        exact le_refl 5
      · rw [command_prepare_failed pr hprepared]
        exact Nat.zero_le _
  | find =>
      cases htext : findReviewText r.decision with
      | ok reviewText =>
          rw [command_find_ok pr htext]
          exact le_refl 4
      | error e =>
          rw [command_find_error pr htext]
          exact Nat.zero_le _
  | post reviewText =>
      by_cases hcomment : r.decision.commentSucceeds = true
      · rw [command_post_ok pr hcomment]
        exact le_refl 3
      · rw [command_post_failed pr hcomment]
        exact Nat.zero_le _
  | judge reviewText =>
      cases hv : verdict reviewText with
      | none =>
          rw [command_judge_none pr hv]
          exact Nat.zero_le _
      | some v =>
          rw [command_judge_some pr hv]
          exact commandsLeft_branch _ _
  | approve => exact le_refl 1
  | arm => exact le_refl 0
  | disarm => exact le_refl 0
  | ended => exact le_refl 0

theorem commandsLeft_steps (k : ℕ) (job : Job) (pr : PullRequest) :
    commandsLeft (steps Job.step k job pr).1.phase ≤ commandsLeft job.phase - k := by
  induction k generalizing job pr with
  | zero => exact le_refl _
  | succ k ih =>
      rw [steps_succ]
      have hfirst : commandsLeft (job.step pr).1.phase ≤ commandsLeft job.phase - 1 :=
        commandsLeft_command job.run job.phase pr
      have hrest := ih (job.step pr).1 (job.step pr).2
      omega

/-- The run has come to its end when it is cut off, so that there is nothing left to cancel. -/
def HasEnded (cut : JobRun × ℕ) : Prop :=
  ∀ pr, (steps Job.step cut.2 ⟨cut.1, .prepare⟩ pr).1.phase = .ended

/-- **Every run ends**, with its sixth command at the latest. -/
theorem hasEnded_of_six_le {k : ℕ} (hk : 6 ≤ k) : HasEnded (r, k) := by
  intro pr
  have hleft : commandsLeft (steps Job.step k ⟨r, .prepare⟩ pr).1.phase ≤ 6 - k :=
    commandsLeft_steps k _ pr
  cases hphase : (steps Job.step k (⟨r, .prepare⟩ : Job) pr).1.phase with
  | ended => rfl
  | _ =>
      rw [hphase] at hleft
      simp only [commandsLeft] at hleft
      omega

/-- Turns after the end change nothing. -/
theorem afterCut_of_hasEnded {cut : JobRun × ℕ} (h : HasEnded cut) (k : ℕ) (pr : PullRequest) :
    afterCut pr (cut.1, cut.2 + k) = afterCut pr cut := by
  show (steps Job.step (cut.2 + k) ⟨cut.1, .prepare⟩ pr).2 = _
  rw [steps_add, steps_of_fixed Job.step (step_ended (h pr))]
  rfl

theorem afterRun_noText {e : Abort} {d : ReviewRun} (h : findReviewText d = .error e)
    (pr : PullRequest) : afterRun pr d = pr := by
  rw [afterRun, decideStep, run_ofExcept_error h]

theorem commands_branch (hmerge : r.mergeSucceeds = true) (k : ℕ) (v : Text) (pr : PullRequest) :
    (act r.decision v).run pr = .ok ⟨⟩ (commands r (k + 2) (branch r.decision v) pr) := by
  unfold act branch
  by_cases happrove : v = approveLine
  · rw [if_pos happrove, if_pos happrove]
    by_cases hmay : MayArm r.decision
    · rw [if_pos hmay, if_pos hmay, commands_succ, commands_succ]
      show _ = EStateM.Result.ok _ (commands r k .ended (if r.mergeSucceeds then _ else _))
      rw [commands_ended, if_pos hmerge]
      rfl
    · rw [if_neg hmay, if_neg hmay, commands_ended]
      rfl
  · rw [if_neg happrove, if_neg happrove, commands_succ]
    show _ = EStateM.Result.ok _ (commands r (k + 1) .ended (if r.mergeSucceeds then _ else _))
    rw [commands_ended, if_pos hmerge]
    rfl

/-- All the commands of a run. -/
theorem commands_all (hmerge : r.mergeSucceeds = true) (j : ℕ) (pr : PullRequest) :
    commands r (j + 6) .prepare pr = afterRun pr (decided r) := by
  rw [commands_succ]
  by_cases hprepared : r.prepared = true
  · have hdecided : decided r = r.decision := by
      rw [decided, hprepared, Bool.true_and]
    rw [command_prepare_ok pr hprepared, hdecided, commands_succ]
    cases htext : findReviewText r.decision with
    | error e => rw [afterRun_noText htext, command_find_error pr htext, commands_ended]
    | ok reviewText =>
        rw [command_find_ok pr htext, commands_succ]
        by_cases hcomment : r.decision.commentSucceeds = true
        · rw [command_post_ok pr hcomment, commands_succ]
          cases hv : verdict reviewText with
          | none =>
              rw [command_judge_none _ hv, afterRun, run_decideStep_noVerdict pr htext hcomment hv,
                commands_ended]
          | some v =>
              rw [command_judge_some _ hv, afterRun, run_decideStep_verdict pr htext hcomment hv,
                commands_branch r hmerge j v]
        · have hpost : (postComment r.decision reviewText).run pr = .error .commentFailed pr := by
            rw [postComment, if_neg hcomment]
            rfl
          rw [command_post_failed pr hcomment, afterRun, decideStep, run_ofExcept_ok htext,
            run_bind_error hpost, commands_ended]
  · have hnone : findReviewText (decided r) = .error .noResultFile := by
      simp [decided, findReviewText, hprepared]
    rw [command_prepare_failed pr hprepared, commands_ended, afterRun_noText hnone]

/-- **A run that comes to its end does what the decide step does.** -/
theorem leftAlone {cut : JobRun × ℕ} (hmerge : cut.1.mergeSucceeds = true) (hended : HasEnded cut)
    (pr : PullRequest) : afterCut pr cut = afterRun pr (decided cut.1) := by
  rw [← afterCut_of_hasEnded hended 6]
  exact commands_all cut.1 hmerge cut.2 pr

end LeftAlone

/-- **Without cancellations the workflow is a history of decide steps.** -/
theorem afterEvents_history (repository : Text) (events : List RepositoryEvent) (prs : ℕ → PullRequest)
    (number : ℕ)
    (hcuts : ∀ cut ∈ runs repository number events, cut.1.mergeSucceeds = true ∧ HasEnded cut) :
    afterEvents repository events prs number
      = runHistory ((runs repository number events).map fun cut => decided cut.1) (prs number) := by
  rw [afterEvents_runs, runHistory, List.foldl_map]
  apply List.foldl_ext
  intro pr cut hcut
  obtain ⟨hmerge, hended⟩ := hcuts cut hcut
  exact leftAlone hmerge hended pr

/-! ### Two pull requests at once -/

/-- The run of one pull request is left alone while that of another one starts. -/
def twoAtOnce : List RepositoryEvent :=
  openedWith 1 approvingRun :: .command 1 :: .command 1 :: openedWith 2 crashedRun :: .command 1 ::
    .command 2 :: List.replicate 3 (.command 1)

theorem afterEvents_history_twoAtOnce :
    afterEvents "o/pge".toList twoAtOnce (fun _ => disarmed) 1
      = runHistory ((runs "o/pge".toList 1 twoAtOnce).map fun cut => decided cut.1) disarmed :=
  afterEvents_history _ _ _ 1 fun cut hcut => by
    have hcuts : ∀ c ∈ runs "o/pge".toList 1 twoAtOnce, c.1.mergeSucceeds = true ∧ 6 ≤ c.2 := by decide
    exact ⟨(hcuts cut hcut).1, hasEnded_of_six_le cut.1 (hcuts cut hcut).2⟩

end JosfraPge.Review.Uncancelled
