import Mathlib.Tactic.Linarith
import Mathlib.Tactic.NormNum
import XttsServer.Guarantees.Lifecycle
import XttsServer.Model.SystemInfo
import XttsServer.Runs.Cleanup

/-!
How long the server remembers a job: with a cleanup loop that runs on time, the record
of a finished job stays for JOB_TTL_SECONDS and is gone a period of the loop later.
-/

set_option autoImplicit false
set_option relaxedAutoImplicit false

namespace XttsServer.Guarantees

open XttsServer.Foundations XttsServer.Foundations.Transition XttsServer.Model

variable {cfg : Config} {slack : ℚ} {u u' : CleanupState} {tr tr' : List Obs}

/-- No pass is overdue, and the last one has left no record that it should have removed. -/
structure Swept (cfg : Config) (slack : ℚ) (u : CleanupState) : Prop where
  since : u.wake - cleanupPeriod ≤ u.server.now
  inTime : u.server.now ≤ u.wake + slack
  stamped : ∀ j job t, u.server.jobs.get? j = some job → job.finishedAt = some t → t ≤ u.server.now
  terminal : ∀ j job, u.server.jobs.get? j = some job → job.status.terminal = true →
    ∃ t, job.finishedAt = some t ∧
      u.wake - cleanupPeriod ≤ t + max (cfg.settings.jobTtlSeconds : ℚ) 0

private theorem Swept.server {event : Event} (h : Swept cfg slack u)
    (meets : punctual slack u (.server event)) (wake : u'.wake = u.wake)
    (forward : u.server.now ≤ u'.server.now)
    (aged : Aging u.server.now u'.server.now u.server.jobs u'.server.jobs)
    (clock : (∃ dt, event = .tick dt ∧ 0 ≤ dt ∧ u'.server.now = u.server.now + dt) ∨
      u'.server.now = u.server.now) : Swept cfg slack u' where
  since := wake ▸ h.since.trans forward
  inTime := by
    rw [wake]
    rcases clock with ⟨dt, rfl, -, later⟩ | same
    · exact later ▸ meets
    · exact same ▸ h.inTime
  stamped j job t found finished := by
    rcases aged.stamped j job found with
      ⟨t', finished', -, high⟩ | ⟨none, -⟩ | ⟨old, before, same, -⟩
    · obtain rfl := Option.some.inj (finished.symm.trans finished')
      exact high
    · cases finished.symm.trans none
    · exact (h.stamped j old t before (same ▸ finished)).trans forward
  terminal j job found closed := by
    rw [wake]
    rcases aged.stamped j job found with
      ⟨t, finished, low, -⟩ | ⟨-, active⟩ | ⟨old, before, same, ended⟩
    · refine ⟨t, finished, h.since.trans (low.trans ?_)⟩
      exact le_add_of_nonneg_right (le_max_right _ _)
    · cases closed.symm.trans active
    · rw [same]
      exact h.terminal j old before (ended closed)

private theorem Swept.pass (h : Swept cfg slack u) (patient : 0 ≤ slack)
    (wake : u'.wake = u.server.now + cleanupPeriod) (now : u'.server.now = u.server.now)
    (records : ∀ j, u'.server.jobs.get? j = (u.server.jobs.get? j).filter fun job =>
      !job.expired (u.server.now - cfg.settings.jobTtlSeconds)) : Swept cfg slack u' where
  since := by rw [wake, now, add_sub_cancel_right]
  inTime := by
    have long : 0 ≤ cleanupPeriod := by norm_num [cleanupPeriod]
    rw [wake, now]
    linarith
  stamped j job t found finished := by
    rw [records, Option.filter_eq_some_iff] at found
    exact now ▸ h.stamped j job t found.1 finished
  terminal j job found closed := by
    rw [records, Option.filter_eq_some_iff] at found
    obtain ⟨there, spared⟩ := found
    obtain ⟨t, finished, -⟩ := h.terminal j job there closed
    refine ⟨t, finished, ?_⟩
    have young : u.server.now - cfg.settings.jobTtlSeconds ≤ t := by
      simpa [Job.expired, closed, finished] using spared
    have most := le_max_left (cfg.settings.jobTtlSeconds : ℚ) 0
    rw [wake, add_sub_cancel_right]
    linarith

private theorem swept (patient : 0 ≤ slack) (h : Reach (cleaned cfg) (punctual slack) tr u) :
    Swept cfg slack u := by
  induction h with
  | refl =>
    have long : 0 ≤ cleanupPeriod := by norm_num [cleanupPeriod]
    have none : ∀ j, (cleaned cfg).init.server.jobs.get? j = none := fun j => Dict.get?_empty j
    refine ⟨?_, ?_, fun j job t found => ?_, fun j job found => ?_⟩
    · exact (add_sub_cancel_right _ _).le
    · change (State.init cfg).now ≤ (State.init cfg).now + cleanupPeriod + slack
      linarith
    · cases (none j).symm.trans found
    · cases (none j).symm.trans found
  | tail before meets taken ih =>
    cases cleanup_move before taken with
    | server wake forward aged clock => exact ih.server meets wake forward aged clock
    | pass _ wake now records => exact ih.pass patient wake now records

/-- A record is there, with the stamp it had or with one of this span of time, as long as the first
has not expired. -/
private theorem kept_along (swept : Swept cfg slack u)
    (before : Reach (cleaned cfg) (punctual slack) tr u)
    (run : Run (cleaned cfg) (punctual slack) u tr' u') {j : JobId} {job : Job}
    (found : u.server.jobs.get? j = some job)
    (young : u'.server.now ≤ job.finishedAt.getD u.server.now + cfg.settings.jobTtlSeconds) :
    u.server.now ≤ u'.server.now ∧ ∃ job', u'.server.jobs.get? j = some job' ∧
      (job'.finishedAt = job.finishedAt ∨ job'.FinishedIn u.server.now u'.server.now) := by
  induction run with
  | refl => exact ⟨le_refl _, job, found, .inl rfl⟩
  | @tail v w tr₁ o e earlier meets taken ih =>
    cases cleanup_move (before.trans earlier) taken with
    | server _ forward aged =>
      obtain ⟨past, job₁, found₁, stamp₁⟩ := ih (forward.trans young)
      obtain ⟨job₂, found₂, stamp₂⟩ := aged.kept j job₁ found₁
      refine ⟨past.trans forward, job₂, found₂, ?_⟩
      rcases stamp₂ with same | fresh
      · rcases stamp₁ with same₁ | ⟨t, finished, low, high⟩
        · exact .inl (same.trans same₁)
        · exact .inr ⟨t, same.trans finished, low, high.trans forward⟩
      · exact .inr (fresh.mono past (le_refl _))
    | pass _ _ now records =>
      rw [now] at young ⊢
      obtain ⟨past, job₁, found₁, stamp₁⟩ := ih young
      refine ⟨past, job₁, ?_, stamp₁⟩
      rw [records, found₁, Option.filter_some, if_pos]
      -- An expired stamp would be older than the one that the record had.
      cases finished₁ : job₁.finishedAt with
      | none => simp [Job.expired, finished₁]
      | some t =>
        have after : job.finishedAt.getD u.server.now ≤ t := by
          rcases stamp₁ with same | ⟨t', finished', low, -⟩
          · rw [← same, finished₁, Option.getD_some]
          · obtain rfl := Option.some.inj (finished₁.symm.trans finished')
            cases finished : job.finishedAt with
            | none => exact low
            | some t₀ => exact (swept.stamped j job t₀ found finished).trans low
        have late : v.server.now - cfg.settings.jobTtlSeconds ≤ t := by linarith
        simp [Job.expired, finished₁, late]

/-- How long records stay, from one state of the server to a later one. -/
structure Retained (cfg : Config) (slack : ℚ) (u u' : CleanupState) : Prop where
  /-- At least JOB_TTL_SECONDS from the end of the job, or from now when it has not come. -/
  kept : ∀ j job, u.server.jobs.get? j = some job →
    u'.server.now ≤ job.finishedAt.getD u.server.now + cfg.settings.jobTtlSeconds →
    ∃ r, getJob u'.server j = .ok r
  /-- Hardly longer than that and the time between two passes. -/
  gone : ∀ j job, u'.server.jobs.get? j = some job → job.status.terminal = true →
    ∃ t, job.finishedAt = some t ∧ t ≤ u'.server.now ∧
      u'.server.now ≤ t + (max (cfg.settings.jobTtlSeconds : ℚ) 0 + cleanupPeriod + slack)

/-- With passes that are at most `slack` late, the records of finished jobs stay for
JOB_TTL_SECONDS and are gone a period later. -/
theorem records_retained (patient : 0 ≤ slack) (before : Reach (cleaned cfg) (punctual slack) tr u)
    (run : Run (cleaned cfg) (punctual slack) u tr' u') : Retained cfg slack u u' where
  kept j job found young := by
    obtain ⟨-, job', there, -⟩ := kept_along (swept patient before) before run found young
    exact ⟨jobToResponse job', by rw [getJob, there]⟩
  gone j job found closed := by
    have now := swept patient (before.trans run)
    obtain ⟨t, finished, recent⟩ := now.terminal j job found closed
    refine ⟨t, finished, now.stamped j job t found finished, ?_⟩
    have due := now.inTime
    linarith

/-- The second job does not fit into the queue and fails at once. -/
def twoJobs : List CleanupEvent :=
  [.server (.submitTts sayHello noSpeakers "a" false),
    .server (.submitTts sayHello noSpeakers "b" false)]

private theorem twoJobs_run :
    (exec (cleaned oneSlot) (punctual 1) (cleaned oneSlot).init twoJobs).isSome = true := by
  decide +kernel

private theorem pass_runs : (exec (cleaned oneSlot) (punctual 1)
    ((exec (cleaned oneSlot) (punctual 1) (cleaned oneSlot).init twoJobs).get twoJobs_run).1
      [.server (.tick 60), .pass []]).isSome = true := by
  decide +kernel

theorem records_retained_two_jobs : Retained oneSlot 1
    ((exec (cleaned oneSlot) (punctual 1) (cleaned oneSlot).init twoJobs).get twoJobs_run).1
    (Option.get _ pass_runs).1 :=
  records_retained (by norm_num) (reach_of_exec twoJobs_run)
    (run_of_exec (Option.some_get pass_runs).symm)

end XttsServer.Guarantees
