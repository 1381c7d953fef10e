import XttsServer.Guarantees.Lifecycle
import XttsServer.Runs.Records

/-!
What `GET /v1/jobs` may be asked about a job at any time: a record whose fields fit
its status, and timings that are not negative.
-/

set_option autoImplicit false
set_option relaxedAutoImplicit false

namespace XttsServer.Guarantees

open XttsServer.Model XttsServer.Foundations XttsServer.Foundations.Transition

variable {cfg : Config} {tr : List Obs} {s : State}

structure Durations (response : JobResponse) : Prop where
  queueWait : ∀ ms, response.queueWaitMs = some ms → 0 ≤ ms
  synthesis : ∀ ms, response.synthesisMs = some ms → 0 ≤ ms
  total : ∀ ms, response.totalMs = some ms → 0 ≤ ms

structure RecordsCoherent (s : State) : Prop where
  records : ∀ j job, s.jobs.get? j = some job → job.Coherent s.now
  timings : ∀ j job, s.jobs.get? j = some job → Durations (jobToResponse job)

private theorem duration {t u : ℚ} (ordered : t ≤ u) : 0 ≤ (u - t) * 1000 :=
  mul_nonneg (sub_nonneg.mpr ordered) (by decide)

private theorem durations_of_coherent {now : ℚ} {job : Job} (h : job.Coherent now) :
    Durations (jobToResponse job) := by
  refine ⟨?_, ?_, ?_⟩
  · intro ms reported
    obtain ⟨t, at', rfl⟩ := Option.map_eq_some_iff.mp reported
    exact duration (h.started t at').1
  · intro ms reported
    change job.synthesisMs = some ms at reported
    unfold Job.synthesisMs at reported
    split at reported
    · rename_i t u at' end'
      obtain rfl := Option.some.inj reported
      exact duration (h.ordered t u at' end')
    · cases reported
  · intro ms reported
    obtain ⟨t, at', rfl⟩ := Option.map_eq_some_iff.mp reported
    exact duration (h.finished t at').1

/-- In runs that split no batch all records are coherent. -/
theorem records_coherent (h : Reach (server cfg) (wholeBatches cfg) tr s) : RecordsCoherent s := by
  have records := (timely (fun _ _ whole => whole) (visit_of_reach h)).records
  exact ⟨records, fun j job found => durations_of_coherent (records j job found)⟩

theorem records_coherent_one_job : RecordsCoherent
    ((exec (server oneWorker) (wholeBatches oneWorker) (server oneWorker).init oneJob).get
      oneJob_whole).1 := records_coherent (reach_of_exec oneJob_whole)

/-- The record of the first job of a split batch runs with an end and an error. -/
theorem running_with_error : ¬ ∀ cfg tr s, Reach (server cfg) anyStep tr s → RecordsCoherent s := by
  intro all
  have records := (all oneSlot _ _ (reach_of_exec splitBatch_runs)).records "a"
  have ended : (((runOf oneSlot splitBatch).get splitBatch_runs).1.jobs.get? "a").any
      (fun job => job.status = .running ∧ job.finishedAt ≠ none) = true := by decide +kernel
  obtain ⟨job, found, broken⟩ := (Option.any_eq_true _ _).mp ended
  obtain ⟨running, finished⟩ := of_decide_eq_true broken
  exact finished ((records job found).running running).2.1

end XttsServer.Guarantees
