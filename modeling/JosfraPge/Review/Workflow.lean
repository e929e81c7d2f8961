import JosfraPge.Foundation.Superseding
import JosfraPge.Review.MergeGate

/-!
# The review workflow over many pull requests

Each `opened`, `synchronize` or `reopened` event of a pull request starts a run of the workflow and
cancels the run in progress for the same number, which may be between any two of its commands.  Runs of
different pull requests interleave.  The job is skipped for a head in another repository, and its last
step runs only when the steps before it succeed.

* `autoMerge_afterCut`: what a cancelled run has done to auto-merge;
* `armed_iff`: when auto-merge is armed, after any interleaving;
* `gate_safe`: what no interleaving can do;
* `elsewhere_leftAlone`: what runs on other pull requests, or comes from a fork, changes nothing.
-/

namespace JosfraPge.Review.Workflow

open JosfraPge.Foundation.LineText
open JosfraPge.Foundation.RunRules
open JosfraPge.Foundation.Superseding
open JosfraPge.Review.MergeGate

/-! ## The commands of a run -/

/-- What a run of the job meets. -/
structure JobRun where
  /-- Checkout and the reviewer's step succeed. -/
  prepared : Bool
  decision : ReviewRun
  /-- Whether `gh pr merge` succeeds; its failure is ignored. -/
  mergeSucceeds : Bool

/-- What a run does next. -/
inductive Phase where
  | prepare
  | find
  | post (reviewText : Text)
  | judge (reviewText : Text)
  | approve
  | arm
  | disarm
  | ended
deriving DecidableEq

/-- The branch on the verdict. -/
def branch (r : ReviewRun) (verdict : Text) : Phase :=
  if verdict = approveLine then (if MayArm r then .approve else .ended) else .disarm

/-- One command. -/
def command (r : JobRun) : Phase → PullRequest → Phase × PullRequest
  | .prepare, pr => (if r.prepared then .find else .ended, pr)
  | .find, pr =>
      match findReviewText r.decision with
      | .ok reviewText => (.post reviewText, pr)
      | .error _ => (.ended, pr)
  | .post reviewText, pr =>
      if r.decision.commentSucceeds then
        (.judge reviewText, { pr with comments := pr.comments ++ [reviewText] })
      else (.ended, pr)
  | .judge reviewText, pr =>
      match verdict reviewText with
      | some v => (branch r.decision v, pr)
      | none => (.ended, pr)
  | .approve, pr =>
      (.arm, if r.decision.approveSucceeds then { pr with approvals := pr.approvals + 1 } else pr)
  | .arm, pr => (.ended, if r.mergeSucceeds then { pr with autoMerge := true } else pr)
  | .disarm, pr => (.ended, if r.mergeSucceeds then { pr with autoMerge := false } else pr)
  | .ended, pr => (.ended, pr)

/-- A run at work: what it meets, and what it does next. -/
structure Job where
  run : JobRun
  phase : Phase

def Job.step (job : Job) (pr : PullRequest) : Job × PullRequest :=
  ({ job with phase := (command job.run job.phase pr).1 }, (command job.run job.phase pr).2)

/-! ## Events -/

/-- The `action` of a `pull_request` event. -/
inductive Action where
  | opened | synchronize | reopened
  | other (name : Text)
deriving DecidableEq

/-- `types: [opened, synchronize, reopened]` -/
def triggers : List Action := [.opened, .synchronize, .reopened]

structure PullRequestEvent where
  number : ℕ
  action : Action
  headRepository : Text
  /-- What the run it starts will meet. -/
  run : JobRun

inductive RepositoryEvent where
  | pullRequest (e : PullRequestEvent)
  /-- The run at work on a pull request carries out a command. -/
  | command (number : ℕ)

section Workflow

variable (repository : Text)

/-- The run an event starts; its job is skipped unless the head is in this repository. -/
def newJob (e : PullRequestEvent) : Job where
  run := e.run
  phase := if e.headRepository = repository then .prepare else .ended

/-- What an event does in the concurrency group `ai-review-N`. -/
def groupEvent : RepositoryEvent → Option (ℕ × Event Job)
  | .pullRequest e => if e.action ∈ triggers then some (e.number, .start (newJob repository e)) else none
  | .command number => some (number, .turn)

/-- The pull requests after a sequence of events. -/
def afterEvents (events : List RepositoryEvent) (prs : ℕ → PullRequest) (number : ℕ) : PullRequest :=
  (runAll Job.step (events.filterMap (groupEvent repository)) (fun n => ⟨none, prs n⟩) number).store

/-- The runs of one pull request, each with the number of commands it gets to carry out. -/
def jobs (number : ℕ) (events : List RepositoryEvent) : List (Job × ℕ) :=
  cuts (project number (events.filterMap (groupEvent repository)))

/-- **Interleavings are histories**: a pull request ends up as its own runs leave it, one after another,
each cut off when the next one started. -/
theorem afterEvents_eq (events : List RepositoryEvent) (prs : ℕ → PullRequest) (number : ℕ) :
    afterEvents repository events prs number
      = (jobs repository number events).foldl (cutOff Job.step) (prs number) := by
  rw [afterEvents, runAll_project]
  exact run_store _ _ _

end Workflow

/-! ## What the commands do -/

section Commands

variable {r : JobRun} {reviewText : Text} (pr : PullRequest)

theorem command_prepare_ok (h : r.prepared = true) : command r .prepare pr = (.find, pr) := by
  rw [command, if_pos h]

theorem command_prepare_failed (h : ¬ r.prepared = true) : command r .prepare pr = (.ended, pr) := by
  rw [command, if_neg h]

theorem command_find_ok (h : findReviewText r.decision = .ok reviewText) :
    command r .find pr = (.post reviewText, pr) := by
  rw [command, h]

theorem command_find_error {e : Abort} (h : findReviewText r.decision = .error e) :
    command r .find pr = (.ended, pr) := by
  rw [command, h]

theorem command_post_ok (h : r.decision.commentSucceeds = true) :
    command r (.post reviewText) pr
      = (.judge reviewText, { pr with comments := pr.comments ++ [reviewText] }) := by
  rw [command, if_pos h]

theorem command_post_failed (h : ¬ r.decision.commentSucceeds = true) :
    command r (.post reviewText) pr = (.ended, pr) := by
  rw [command, if_neg h]

theorem command_judge_some {v : Text} (h : verdict reviewText = some v) :
    command r (.judge reviewText) pr = (branch r.decision v, pr) := by
  rw [command, h]

theorem command_judge_none (h : verdict reviewText = none) :
    command r (.judge reviewText) pr = (.ended, pr) := by
  rw [command, h]

/-- What it takes to approve, once there is a review. -/
theorem approved_iff (h : findReviewText r.decision = .ok reviewText) :
    Approved r.decision ↔ r.decision.commentSucceeds = true ∧
      verdict reviewText = some approveLine ∧ MayArm r.decision := by
  unfold Approved runVerdict
  rw [h]
  by_cases hcomment : r.decision.commentSucceeds = true
  · simp [hcomment]
  · simp [hcomment]

end Commands

/-! ## A run, cut off anywhere -/

section Runs

variable (r : JobRun)

/-- The pull request after so many commands. -/
def commands (k : ℕ) (phase : Phase) (pr : PullRequest) : PullRequest :=
  (steps Job.step k ⟨r, phase⟩ pr).2

theorem commands_succ (k : ℕ) (phase : Phase) (pr : PullRequest) :
    commands r (k + 1) phase pr = commands r k (command r phase pr).1 (command r phase pr).2 := rfl

/-- A job that has ended changes nothing. -/
theorem step_ended {job : Job} (h : job.phase = .ended) (pr : PullRequest) : job.step pr = (job, pr) := by
  obtain ⟨r, phase⟩ := job
  obtain rfl : phase = .ended := h
  rfl

theorem commands_ended (k : ℕ) (pr : PullRequest) : commands r k .ended pr = pr := by
  show (steps Job.step k (⟨r, .ended⟩ : Job) pr).2 = pr
  rw [steps_of_fixed Job.step (step_ended rfl)]

/-! ### Auto-merge -/

/-- From this phase on, the `i`-th command arms auto-merge if `arms`, the `j`-th one disarms it if
`disarms`, and no other one touches it. -/
def Switches (phase : Phase) (arms : Prop) (i : ℕ) (disarms : Prop) (j : ℕ) : Prop :=
  ∀ k pr, (commands r k phase pr).autoMerge = true ↔
    (arms ∧ i ≤ k) ∨ (pr.autoMerge = true ∧ ¬ (disarms ∧ j ≤ k))

variable {r}

theorem switches_ended (i j : ℕ) : Switches r .ended False i False j := by
  intro k pr
  rw [commands_ended]
  simp

/-- A command that leaves auto-merge alone delays the rest by one. -/
theorem switches_next {phase phase' : Phase} {change : PullRequest → PullRequest} {arms disarms : Prop}
    {i j : ℕ} (hcommand : ∀ pr, command r phase pr = (phase', change pr))
    (hsame : ∀ pr, (change pr).autoMerge = pr.autoMerge) (h : Switches r phase' arms i disarms j) :
    Switches r phase arms (i + 1) disarms (j + 1) := by
  intro k pr
  cases k with
  | zero =>
      show pr.autoMerge = true ↔ _
      simp
  | succ k =>
      rw [commands_succ, hcommand, h k, hsame, Nat.add_le_add_iff_right, Nat.add_le_add_iff_right]

theorem Switches.congr {phase : Phase} {arms disarms arms' disarms' : Prop} {i j : ℕ}
    (h : Switches r phase arms i disarms j) (harms : arms ↔ arms') (hdisarms : disarms ↔ disarms') :
    Switches r phase arms' i disarms' j := by
  intro k pr
  rw [h k pr, harms, hdisarms]

theorem switches_arm (j : ℕ) : Switches r .arm (r.mergeSucceeds = true) 1 False j := by
  intro k pr
  cases k with
  | zero =>
      show pr.autoMerge = true ↔ _
      simp
  | succ k =>
      rw [commands_succ]
      show (commands r k .ended (if r.mergeSucceeds then _ else _)).autoMerge = true ↔ _
      rw [commands_ended]
      by_cases hmerge : r.mergeSucceeds = true
      · simp [hmerge]
      · simp [hmerge]

theorem switches_disarm (i : ℕ) : Switches r .disarm False i (r.mergeSucceeds = true) 1 := by
  intro k pr
  cases k with
  | zero =>
      show pr.autoMerge = true ↔ _
      simp
  | succ k =>
      rw [commands_succ]
      show (commands r k .ended (if r.mergeSucceeds then _ else _)).autoMerge = true ↔ _
      rw [commands_ended]
      by_cases hmerge : r.mergeSucceeds = true
      · simp [hmerge]
      · simp [hmerge]

theorem switches_branch (v : Text) :
    Switches r (branch r.decision v) ((v = approveLine ∧ MayArm r.decision) ∧ r.mergeSucceeds = true) 2
      (v ≠ approveLine ∧ r.mergeSucceeds = true) 1 := by
  unfold branch
  by_cases happrove : v = approveLine
  · rw [if_pos happrove]
    by_cases hmay : MayArm r.decision
    · rw [if_pos hmay]
      have hsame : ∀ pr : PullRequest, (if r.decision.approveSucceeds then
          { pr with approvals := pr.approvals + 1 } else pr).autoMerge = pr.autoMerge := by
        intro pr
        split <;> rfl
      exact (switches_next (fun _ => rfl) hsame (switches_arm 0)).congr (by simp [happrove, hmay])
        (by simp [happrove])
    · rw [if_neg hmay]
      exact (switches_ended 2 1).congr (by simp [hmay]) (by simp [happrove])
  · rw [if_neg happrove]
    exact (switches_disarm 2).congr (by simp [happrove]) (by simp [happrove])

theorem switches_judge (reviewText : Text) :
    Switches r (.judge reviewText)
      ((verdict reviewText = some approveLine ∧ MayArm r.decision) ∧ r.mergeSucceeds = true) 3
      ((∃ v, verdict reviewText = some v ∧ v ≠ approveLine) ∧ r.mergeSucceeds = true) 2 := by
  cases hv : verdict reviewText with
  | none =>
      exact (switches_next (fun pr => command_judge_none pr hv) (fun _ => rfl) (switches_ended 2 1)).congr
        (by simp) (by simp)
  | some v =>
      exact (switches_next (fun pr => command_judge_some pr hv) (fun _ => rfl) (switches_branch v)).congr
        (by simp) (by simp)

theorem switches_find :
    Switches r .find (Approved r.decision ∧ r.mergeSucceeds = true) 5
      (ChangesNeeded r.decision ∧ r.mergeSucceeds = true) 4 := by
  unfold Approved ChangesNeeded runVerdict
  cases htext : findReviewText r.decision with
  | error e =>
      exact (switches_next (fun pr => command_find_error pr htext) (fun _ => rfl)
        (switches_ended 4 3)).congr (by simp) (by simp)
  | ok reviewText =>
      by_cases hcomment : r.decision.commentSucceeds = true
      · have hlater := switches_next (fun pr => command_post_ok pr hcomment) (fun _ => rfl)
          (switches_judge reviewText)
        exact (switches_next (fun pr => command_find_ok pr htext) (fun _ => rfl) hlater).congr
          (by simp [hcomment]) (by simp [hcomment])
      · have hlater : Switches r (.post reviewText) False 4 False 3 :=
          switches_next (fun pr => command_post_failed pr hcomment) (fun _ => rfl) (switches_ended 3 2)
        exact (switches_next (fun pr => command_find_ok pr htext) (fun _ => rfl) hlater).congr
          (by simp [hcomment]) (by simp [hcomment])

theorem switches_prepare :
    Switches r .prepare (r.prepared = true ∧ Approved r.decision ∧ r.mergeSucceeds = true) 6
      (r.prepared = true ∧ ChangesNeeded r.decision ∧ r.mergeSucceeds = true) 5 := by
  by_cases hprepared : r.prepared = true
  · exact (switches_next (fun pr => command_prepare_ok pr hprepared) (fun _ => rfl) switches_find).congr
      (by simp [hprepared]) (by simp [hprepared])
  · exact (switches_next (fun pr => command_prepare_failed pr hprepared) (fun _ => rfl)
      (switches_ended 5 4)).congr (by simp [hprepared]) (by simp [hprepared])

end Runs

/-- The run gets as far as arming auto-merge. -/
def Arms (cut : JobRun × ℕ) : Prop :=
  (cut.1.prepared = true ∧ Approved cut.1.decision ∧ cut.1.mergeSucceeds = true) ∧ 6 ≤ cut.2

/-- The run gets as far as disarming auto-merge. -/
def Disarms (cut : JobRun × ℕ) : Prop :=
  (cut.1.prepared = true ∧ ChangesNeeded cut.1.decision ∧ cut.1.mergeSucceeds = true) ∧ 5 ≤ cut.2

/-- A run of the job, cut off after so many commands. -/
def afterCut (pr : PullRequest) (cut : JobRun × ℕ) : PullRequest := commands cut.1 cut.2 .prepare pr

/-- **A run that is cut off has armed or disarmed auto-merge if it got that far**, and has left it as it
was otherwise. -/
theorem autoMerge_afterCut (pr : PullRequest) (cut : JobRun × ℕ) :
    (afterCut pr cut).autoMerge = true ↔ Arms cut ∨ (pr.autoMerge = true ∧ ¬ Disarms cut) :=
  switches_prepare cut.2 pr

/-! ## Comments and approvals -/

section Budgets

variable (r : JobRun)

/-- The review that a run finds. -/
def reviewOf : List Text :=
  match findReviewText r.decision with
  | .ok reviewText => [reviewText]
  | .error _ => []

/-- The comments a run can still post. -/
def commentsLeft : Phase → List Text
  | .prepare | .find => reviewOf r
  | .post reviewText => [reviewText]
  | _ => []

/-- The approvals a run can still give. -/
def approvalsLeft : Phase → ℕ
  | .prepare | .find => if Approved r.decision then 1 else 0
  | .post reviewText =>
      if r.decision.commentSucceeds = true ∧ verdict reviewText = some approveLine ∧ MayArm r.decision
      then 1 else 0
  | .judge reviewText => if verdict reviewText = some approveLine ∧ MayArm r.decision then 1 else 0
  | .approve => 1
  | _ => 0

theorem command_comments (phase : Phase) (pr : PullRequest) :
    ∃ posted, (command r phase pr).2.comments = pr.comments ++ posted ∧
      (posted ++ commentsLeft r (command r phase pr).1).Sublist (commentsLeft r phase) := by
  have hsilent : ∀ phase' pr', command r phase pr = (phase', pr') → pr'.comments = pr.comments →
      (commentsLeft r phase').Sublist (commentsLeft r phase) →
      ∃ posted, (command r phase pr).2.comments = pr.comments ++ posted ∧
        (posted ++ commentsLeft r (command r phase pr).1).Sublist (commentsLeft r phase) := by
    intro phase' pr' hcommand hsame hleft
    rw [hcommand]
    exact ⟨[], by rw [hsame, List.append_nil], hleft⟩
  cases phase with
  | prepare =>
      apply hsilent _ _ rfl rfl
      split
      · exact List.Sublist.refl _
      · exact List.nil_sublist _
  | find =>
      cases htext : findReviewText r.decision with
      | error e => exact hsilent _ _ (command_find_error pr htext) rfl (List.nil_sublist _)
      | ok reviewText =>
          apply hsilent _ _ (command_find_ok pr htext) rfl
          show List.Sublist [reviewText] (reviewOf r)
          rw [reviewOf, htext]
  | post reviewText =>
      by_cases hcomment : r.decision.commentSucceeds = true
      · rw [command_post_ok pr hcomment]
        exact ⟨[reviewText], rfl, List.Sublist.refl _⟩
      · exact hsilent _ _ (command_post_failed pr hcomment) rfl (List.nil_sublist _)
  | judge reviewText =>
      cases hv : verdict reviewText with
      | none => exact hsilent _ _ (command_judge_none pr hv) rfl (List.nil_sublist _)
      | some v =>
          apply hsilent _ _ (command_judge_some pr hv) rfl
          unfold branch
          split
          · split <;> exact List.Sublist.refl _
          · exact List.Sublist.refl _
  | approve =>
      apply hsilent _ _ rfl _ (List.Sublist.refl _)
      split <;> rfl
  | arm =>
      apply hsilent _ _ rfl _ (List.Sublist.refl _)
      split <;> rfl
  | disarm =>
      apply hsilent _ _ rfl _ (List.Sublist.refl _)
      split <;> rfl
  | ended => exact hsilent .ended pr rfl rfl (List.Sublist.refl _)

theorem command_approvals (phase : Phase) (pr : PullRequest) :
    (command r phase pr).2.approvals + approvalsLeft r (command r phase pr).1
      ≤ pr.approvals + approvalsLeft r phase := by
  cases phase with
  | prepare =>
      show pr.approvals + approvalsLeft r (if r.prepared then .find else .ended) ≤ _
      split
      · exact le_refl _
      · exact Nat.add_le_add_left (Nat.zero_le _) _
  | find =>
      cases htext : findReviewText r.decision with
      | error e =>
          rw [command_find_error pr htext]
          exact Nat.add_le_add_left (Nat.zero_le _) _
      | ok reviewText =>
          rw [command_find_ok pr htext]
          simp only [approvalsLeft, approved_iff htext]
          exact le_refl _
  | post reviewText =>
      by_cases hcomment : r.decision.commentSucceeds = true
      · rw [command_post_ok pr hcomment]
        simp [approvalsLeft, hcomment]
      · rw [command_post_failed pr hcomment]
        simp [approvalsLeft]
  | judge reviewText =>
      cases hv : verdict reviewText with
      | none =>
          rw [command_judge_none pr hv]
          simp [approvalsLeft]
      | some v =>
          rw [command_judge_some pr hv]
          show pr.approvals + approvalsLeft r (branch r.decision v) ≤ _
          by_cases happrove : v = approveLine ∧ MayArm r.decision
          · simp [branch, approvalsLeft, hv, happrove]
          · have hno : approvalsLeft r (branch r.decision v) = 0 := by
              unfold branch
              split
              · rw [if_neg fun hmay => happrove ⟨by assumption, hmay⟩]
                rfl
              · rfl
            rw [hno]
            exact Nat.add_le_add_left (Nat.zero_le _) _
  | approve =>
      show (if r.decision.approveSucceeds then _ else _ : PullRequest).approvals + 0 ≤ pr.approvals + 1
      split
      · exact le_refl _
      · exact Nat.le_succ _
  | arm =>
      show (if r.mergeSucceeds then _ else _ : PullRequest).approvals + 0 ≤ pr.approvals + 0
      split <;> exact le_refl _
  | disarm =>
      show (if r.mergeSucceeds then _ else _ : PullRequest).approvals + 0 ≤ pr.approvals + 0
      split <;> exact le_refl _
  | ended => exact le_refl _

theorem commands_comments (k : ℕ) (phase : Phase) (pr : PullRequest) :
    ∃ posted, (commands r k phase pr).comments = pr.comments ++ posted ∧
      posted.Sublist (commentsLeft r phase) := by
  induction k generalizing phase pr with
  | zero => exact ⟨[], (List.append_nil _).symm, List.nil_sublist _⟩
  | succ k ih =>
      obtain ⟨first, hfirst, hleft⟩ := command_comments r phase pr
      obtain ⟨rest, hrest, hsub⟩ := ih (command r phase pr).1 (command r phase pr).2
      refine ⟨first ++ rest, ?_, (hsub.append_left first).trans hleft⟩
      rw [commands_succ, hrest, hfirst, List.append_assoc]

theorem commands_approvals (k : ℕ) (phase : Phase) (pr : PullRequest) :
    (commands r k phase pr).approvals ≤ pr.approvals + approvalsLeft r phase := by
  induction k generalizing phase pr with
  | zero => exact Nat.le_add_right _ _
  | succ k ih =>
      rw [commands_succ]
      exact (ih _ _).trans (command_approvals r phase pr)

end Budgets

/-! ## Every interleaving -/

section Interleavings

variable (repository : Text)

/-- The run of the job that an event starts, if its head is in this repository. -/
def jobCut (cut : Job × ℕ) : Option (JobRun × ℕ) :=
  if cut.1.phase = .prepare then some (cut.1.run, cut.2) else none

/-- The runs of the job on one pull request, each with the number of commands it carries out. -/
def runs (number : ℕ) (events : List RepositoryEvent) : List (JobRun × ℕ) :=
  (jobs repository number events).filterMap jobCut

/-- Jobs that are skipped do nothing. -/
theorem foldl_jobCut {cuts : List (Job × ℕ)}
    (h : ∀ c ∈ cuts, c.1.phase = .prepare ∨ c.1.phase = .ended) (pr : PullRequest) :
    cuts.foldl (cutOff Job.step) pr = (cuts.filterMap jobCut).foldl afterCut pr := by
  induction cuts generalizing pr with
  | nil => rfl
  | cons c cuts ih =>
      have hrest := ih fun d hd => h d (List.mem_cons_of_mem _ hd)
      obtain ⟨⟨r, phase⟩, k⟩ := c
      rcases h _ List.mem_cons_self with hphase | hphase
      · obtain rfl : phase = .prepare := hphase
        exact hrest _
      · obtain rfl : phase = .ended := hphase
        show cuts.foldl (cutOff Job.step) (commands r k .ended pr) = (cuts.filterMap jobCut).foldl _ pr
        rw [commands_ended, hrest]

/-- Every job starts at its first step or is skipped. -/
theorem phase_of_mem_jobs {number : ℕ} {events : List RepositoryEvent} {c : Job × ℕ}
    (h : c ∈ jobs repository number events) :
    ∃ e, RepositoryEvent.pullRequest e ∈ events ∧ e.number = number ∧ e.action ∈ triggers ∧
      c.1 = newJob repository e := by
  obtain ⟨⟨n, event⟩, hmem, hproject⟩ := List.mem_filterMap.1 (mem_cuts h)
  obtain ⟨source, hsource, hgroup⟩ := List.mem_filterMap.1 hmem
  split at hproject
  · rename_i hn
    obtain rfl := Option.some.inj hproject
    cases source with
    | command m => exact absurd hgroup (by simp [groupEvent])
    | pullRequest e =>
        by_cases haction : e.action ∈ triggers
        · rw [groupEvent, if_pos haction] at hgroup
          obtain ⟨hnumber, hstart⟩ := Prod.mk.inj (Option.some.inj hgroup)
          injection hstart with hjob
          exact ⟨e, hsource, hnumber.trans hn, haction, hjob.symm⟩
        · rw [groupEvent, if_neg haction] at hgroup
          exact absurd hgroup (by simp)
  · exact absurd hproject (by simp)

theorem afterEvents_runs (events : List RepositoryEvent) (prs : ℕ → PullRequest) (number : ℕ) :
    afterEvents repository events prs number
      = (runs repository number events).foldl afterCut (prs number) := by
  rw [afterEvents_eq, foldl_jobCut]
  · rfl
  · intro c hc
    obtain ⟨e, -, -, -, hjob⟩ := phase_of_mem_jobs repository hc
    rw [hjob, newJob]
    by_cases hhead : e.headRepository = repository
    · exact Or.inl (if_pos hhead)
    · exact Or.inr (if_neg hhead)

/-- **When auto-merge is armed**, whatever has interleaved: a run armed it and no later one got as far as
disarming it, or it was armed at first and none did. -/
theorem armed_iff (events : List RepositoryEvent) (prs : ℕ → PullRequest) (number : ℕ) :
    (afterEvents repository events prs number).autoMerge = true ↔
      (∃ before cut after, runs repository number events = before ++ cut :: after ∧ Arms cut ∧
          ∀ later ∈ after, ¬ Disarms later) ∨
        ((prs number).autoMerge = true ∧ ∀ cut ∈ runs repository number events, ¬ Disarms cut) := by
  rw [afterEvents_runs]
  exact foldl_flag_iff autoMerge_afterCut _ _

/-- A run on a pull request comes from one of its events, for a head in this repository. -/
theorem mem_runs {number : ℕ} {events : List RepositoryEvent} {cut : JobRun × ℕ}
    (h : cut ∈ runs repository number events) :
    ∃ e, RepositoryEvent.pullRequest e ∈ events ∧ e.number = number ∧ e.action ∈ triggers ∧
      e.headRepository = repository ∧ e.run = cut.1 := by
  obtain ⟨c, hc, hjob⟩ := List.mem_filterMap.1 h
  obtain ⟨e, hmem, hnumber, haction, hnew⟩ := phase_of_mem_jobs repository hc
  refine ⟨e, hmem, hnumber, haction, ?_⟩
  unfold jobCut at hjob
  rw [hnew, newJob] at hjob
  by_cases hhead : e.headRepository = repository
  · simp only [hhead, if_true] at hjob
    exact ⟨hhead, congrArg Prod.fst (Option.some.inj hjob)⟩
  · simp [hhead] at hjob

/-- What a pull request can have gained by its runs. -/
structure GateSafe (cuts : List (JobRun × ℕ)) (pr pr' : PullRequest) : Prop where
  comments : ∃ posted, pr'.comments = pr.comments ++ posted ∧
    posted.Sublist (cuts.flatMap fun cut => reviewOf cut.1)
  approvals : pr'.approvals ≤ pr.approvals + cuts.countP fun cut => decide (Approved cut.1.decision)
  armed : pr'.autoMerge = true → pr.autoMerge = true ∨ ∃ cut ∈ cuts, Arms cut

theorem gateSafe_foldl (cuts : List (JobRun × ℕ)) (pr : PullRequest) :
    GateSafe cuts pr (cuts.foldl afterCut pr) := by
  induction cuts generalizing pr with
  | nil => exact ⟨⟨[], (List.append_nil _).symm, List.nil_sublist _⟩, le_refl _, Or.inl⟩
  | cons cut cuts ih =>
      obtain ⟨⟨rest, hrest, hsub⟩, happrovals, harmed⟩ := ih (afterCut pr cut)
      obtain ⟨first, hfirst, hleft⟩ := commands_comments cut.1 cut.2 .prepare pr
      have happroves := commands_approvals cut.1 cut.2 .prepare pr
      refine ⟨⟨first ++ rest, ?_, ?_⟩, ?_, ?_⟩
      · rw [List.foldl_cons, hrest, afterCut, hfirst, List.append_assoc]
      · rw [List.flatMap_cons]
        exact hleft.append hsub
      · rw [List.foldl_cons, List.countP_cons]
        have hone : approvalsLeft cut.1 .prepare
            = if decide (Approved cut.1.decision) = true then 1 else 0 := by
          simp [approvalsLeft]
        rw [hone] at happroves
        exact happrovals.trans (by
          show (commands cut.1 cut.2 .prepare pr).approvals + _ ≤ _
          omega)
      · intro h
        rcases harmed h with hbefore | ⟨later, hlater, harms⟩
        · rcases (autoMerge_afterCut pr cut).1 hbefore with harms | hleftArmed
          · exact Or.inr ⟨cut, List.mem_cons_self, harms⟩
          · exact Or.inl hleftArmed.1
        · exact Or.inr ⟨later, List.mem_cons_of_mem _ hlater, harms⟩

/-- **What no interleaving can do**: a pull request gets no comment but the reviews found for it, no more
approvals than runs that approved, and is armed only by such a run that got as far as arming it. -/
theorem gate_safe (events : List RepositoryEvent) (prs : ℕ → PullRequest) (number : ℕ) :
    GateSafe (runs repository number events) (prs number)
      (afterEvents repository events prs number) := by
  rw [afterEvents_runs]
  exact gateSafe_foldl _ _

/-- **A pull request from elsewhere is left alone**, with all that runs on the others. -/
theorem elsewhere_leftAlone {events : List RepositoryEvent} {number : ℕ}
    (helsewhere : ∀ e, RepositoryEvent.pullRequest e ∈ events → e.number = number →
      e.headRepository ≠ repository) (prs : ℕ → PullRequest) :
    afterEvents repository events prs number = prs number := by
  have hnone : runs repository number events = [] := by
    apply List.eq_nil_iff_forall_not_mem.2
    intro cut hcut
    obtain ⟨e, hmem, hnumber, -, hhead, -⟩ := mem_runs repository hcut
    exact helsewhere e hmem hnumber hhead
  rw [afterEvents_runs, hnone, List.foldl_nil]

end Interleavings

/-! ### A pull request of a fork -/

def openedWith (number : ℕ) (decision : ReviewRun) : RepositoryEvent :=
  .pullRequest { number := number, action := .opened, headRepository := "o/pge".toList,
                 run := { prepared := true, decision := decision, mergeSucceeds := true } }

def disarmed : PullRequest where
  comments := []
  approvals := 0
  autoMerge := false

/-- A run on a pull request of a fork, which is skipped, and one of this repository. -/
def fromFork : List RepositoryEvent :=
  [.pullRequest { number := 1, action := .opened, headRepository := "fork/pge".toList,
                  run := { prepared := true, decision := approvingRun, mergeSucceeds := true } },
    .command 1, openedWith 2 approvingRun, .command 1, .command 2, .command 1]

theorem elsewhere_leftAlone_fromFork :
    afterEvents "o/pge".toList fromFork (fun _ => disarmed) 1 = disarmed := by
  refine elsewhere_leftAlone _ ?_ _
  intro e hmem hnumber
  simp only [fromFork, openedWith, List.mem_cons, List.not_mem_nil, or_false, reduceCtorEq, false_or,
    RepositoryEvent.pullRequest.injEq] at hmem
  rcases hmem with rfl | rfl
  · show "fork/pge".toList ≠ "o/pge".toList
    decide
  · exact absurd hnumber (by decide)

end JosfraPge.Review.Workflow
