import XttsServer.Guarantees.Slots
import XttsServer.Guarantees.Dispatch
import XttsServer.Runs.Lifecycle

/-!
What a client may expect of the status of a job: that it only moves forward, that a
rejected batch leaves nothing behind, and that every open job is being worked on.
-/

set_option autoImplicit false
set_option relaxedAutoImplicit false

namespace XttsServer.Guarantees

open XttsServer.Model XttsServer.Foundations XttsServer.Foundations.Transition

variable {cfg : Config} {P : State → Event → Prop} {s s' s₀ s₁ : State} {e : Event}
  {tr tr' o : List Obs}

/-! ### Statuses only move forward -/

/-- No batch is split between the queue and its rejection. -/
def wholeBatches (cfg : Config) (s : State) (e : Event) : Prop := splitsBatch cfg s e = false

instance (s : State) (e : Event) : Decidable (wholeBatches cfg s e) :=
  inferInstanceAs (Decidable (_ = _))

structure LifecycleMonotone (cfg : Config) (P : State → Event → Prop) (tr : List Obs) (s : State) :
    Prop where
  path : ∀ j, LifePath (history tr j)
  /-- The status of a record is the last one that its job has taken. -/
  current : ∀ j job, s.jobs.get? j = some job → (history tr j).getLast? = some job.status
  /-- Nothing but the eviction of the record touches status, error or time of a finished job. -/
  final : ∀ j job, s.jobs.get? j = some job → job.status.terminal = true →
    ∀ tr' s', Run (server cfg) P s tr' s' → ∀ job', s'.jobs.get? j = some job' →
      job'.outcome = job.outcome

/-- The record of the job, if it is still there, has this outcome. -/
private def Final (j : JobId) (job : Job) (s : State) : Prop :=
  j ∈ s.used ∧ ∀ job', s.jobs.get? j = some job' → job'.outcome = job.outcome

private theorem Final.step {j : JobId} {job : Job} (ended : job.status.terminal = true)
    (h : Final j job s) (life : Life tr s j) (used : s.used ⊆ s'.used)
    (whole : splitsBatch cfg s₀ e = false) (step : JobStep cfg s₀ s s' e o j) :
    Final j job s' := by
  obtain ⟨drawn, final⟩ := h
  refine ⟨used drawn, fun job' found => ?_⟩
  -- A carrier would find the record in a status that is not final.
  have closed : ∀ old status, s.jobs.get? j = some old →
      (history tr j).getLast? = some status → status.terminal = true := by
    intro old status there last
    have same := life.record old there
    rw [last] at same
    have kept := congrArg Prod.fst (final old there)
    rw [Option.some.inj same, show old.status = job.status from kept]
    exact ended
  cases step with
  | same record =>
    obtain ⟨old, there, same⟩ := outcome_of_map record found
    exact same.trans (final old there)
  | queued fresh | turnedAway fresh | stranded _ fresh => exact absurd drawn fresh
  | refused split =>
    rw [whole] at split
    cases split
  | runs was record | fails was record =>
    obtain ⟨old, there, -⟩ := status_of_map record found
    have open_ := closed old .pending there (by rw [life.early was]; rfl)
    cases open_
  | finishes was record =>
    obtain ⟨old, there, -⟩ := status_of_map record found
    have open_ := closed old .running there (by rw [life.saving was]; rfl)
    cases open_
  | raises _ _ record => exact final job' (record ▸ found)
  | evicted _ _ _ gone =>
    rw [gone] at found
    cases found

/-- In runs that split no batch every job moves along its path and stays as it ended. -/
theorem lifecycle_monotone (h : Reach (server cfg) (wholeBatches cfg) tr s) :
    LifecycleMonotone cfg (wholeBatches cfg) tr s := by
  have visit := visit_of_reach h
  have lives : ∀ {tr : List Obs} {s : State}, Visit cfg (wholeBatches cfg) tr s → ∀ j,
      Life tr s j :=
    fun visit j => life (fun _ _ whole => whole) visit j
  refine ⟨fun j => (lives visit j).path, fun j => (lives visit j).record, ?_⟩
  intro j job found ended tr' s' run
  have drawn : j ∈ s.used := (lives visit j).drawn fun unborn => by
    have last := (lives visit j).record job found
    simp [unborn] at last
  have start : Final j job s := by
    refine ⟨drawn, fun job' again => ?_⟩
    rw [Option.some.inj (again.symm.trans found)]
  have final : Final j job s' := visit.keeps (chain_of_run run) start
    fun visit whole change now => now.step ended (lives visit j) change.grows.1 whole
      (change.job visit j)
  exact final.2

theorem oneJob_whole :
    (exec (server oneWorker) (wholeBatches oneWorker) (server oneWorker).init
      oneJob).isSome = true := by
  decide +kernel

theorem lifecycle_monotone_one_job :
    LifecycleMonotone oneWorker (wholeBatches oneWorker)
      ((exec (server oneWorker) (wholeBatches oneWorker) (server oneWorker).init oneJob).get
        oneJob_whole).2
      ((exec (server oneWorker) (wholeBatches oneWorker) (server oneWorker).init oneJob).get
        oneJob_whole).1 :=
  lifecycle_monotone (reach_of_exec oneJob_whole)

/-- One worker, and room for one request in the queue. -/
def oneSlot : Config where
  settings := { workersPerGpuList := [1], maxQueueSize := 1 }
  workers_valid := by decide

/-- A batch of two of which the queue takes the first item, and the dispatch of that item. -/
def splitBatch : List Event :=
  [.submitBatch [sayHello, sayHello] noSpeakers ["a", "b"] none, .resumeDrain, .drainPut,
    .resumeDrain, .resume "a", .workerTake 0, .workerReply 0 (.arrays ⟨[1], [0]⟩ ⟨[], []⟩),
    .getReply "a", .resume "a"]

theorem splitBatch_runs : (runOf oneSlot splitBatch).isSome = true := by decide +kernel

/-- The first job of a split batch is failed and then runs all the same. -/
theorem failed_job_runs :
    ¬ ∀ cfg tr s, Reach (server cfg) anyStep tr s → LifecycleMonotone cfg anyStep tr s := by
  intro all
  have path := (all oneSlot _ _ (reach_of_exec splitBatch_runs)).path "a"
  have told : history ((runOf oneSlot splitBatch).get splitBatch_runs).2 "a" =
      [.pending, .failed, .running] := by decide +kernel
  change LifePath (history ((runOf oneSlot splitBatch).get splitBatch_runs).2 "a") at path
  rw [told] at path
  cases path

/-! ### Rejected batches -/

/-- Of the jobs that a call has created none is ever dispatched, and the records say so. -/
structure BatchUndone (cfg : Config) (created : List JobId) (tr : List Obs) (s : State) : Prop where
  failed : ∀ j ∈ created, (s.jobs.get? j).map Job.status = some .failed
  stays : ∀ tr' s', Run (server cfg) anyStep s tr' s' → ∀ j ∈ created, ∀ job,
    s'.jobs.get? j = some job → job.status = .failed
  undispatched : ∀ tr' s', Run (server cfg) anyStep s tr' s' → ∀ j ∈ created, ∀ r w,
    .dispatched r w ∈ tr ++ tr' → r.jobId ≠ j

/-- A job that nothing carries and that has failed. -/
private def Buried (j : JobId) (s : State) : Prop :=
  Closed s j ∧ ∀ job, s.jobs.get? j = some job → job.status = .failed

private theorem Buried.step {j : JobId} (h : Buried j s) (used : s.used ⊆ s'.used)
    (step : JobStep cfg s₀ s s' e o j) : Buried j s' := by
  obtain ⟨closed, failed⟩ := h
  refine ⟨step.closed closed used, fun job' found => ?_⟩
  cases step with
  | same record =>
    obtain ⟨job, there, same⟩ := outcome_of_map record found
    exact (congrArg Prod.fst same).trans (failed job there)
  | queued fresh | turnedAway fresh | stranded _ fresh => exact absurd closed.1 fresh
  | refused _ _ record => exact record job' found
  | runs was | fails was | finishes was | raises _ was =>
    rw [closed.2] at was
    cases was
  | evicted _ _ _ gone =>
    rw [gone] at found
    cases found

/-- A rejected batch that was not split has created at most one job, which it has buried. -/
private theorem rejected_now (before : Visit cfg P tr s)
    (whole : splitsBatch cfg s₀ e = false) (change : Change cfg s₀ e s s' o) {created : List JobId}
    {status : Nat} {detail : String} (told : .batch created (.error (.http status detail)) ∈ o)
    {j : JobId} (mine : j ∈ created) :
    Buried j s' ∧ j ∈ s'.jobs.keys ∧ ∃ item, item.jobId = j ∧ .rejected item ∈ o := by
  cases change with
  | @jobTurnedAway s r k text answer fresh full cause =>
    obtain ⟨rfl, rfl⟩ : answer = .batch [k] (.error (.http 503 text)) ∧ created = [k] := by
      rcases cause with rfl | rfl <;> simp at told ⊢
      exact told.1
    obtain rfl : j = k := List.mem_singleton.mp mine
    have found := JobStore.status_create s.jobs s.now j r.text r.language r.speakerId
    obtain ⟨job, present, -⟩ := Option.map_eq_some_iff.mp found
    have failed : ((s.jobs.create s.now j r.text r.language r.speakerId).markFailed s.now j
        text).get? j = some (job.markFailed s.now text) := by
      rw [JobStore.markFailed, Dict.get?_modify, if_pos rfl, present]
      rfl
    refine ⟨⟨⟨List.mem_cons_self, phase_of_fresh before fresh⟩, fun job' there => ?_⟩,
      (Dict.mem_keys_iff _ _).mpr ⟨_, failed⟩, storeItem cfg s r j, rfl, by simp⟩
    dsimp only at there
    rw [failed] at there
    exact Option.some.inj there ▸ rfl
  | @answered _ a answer cause =>
    obtain rfl : .batch created (.error (.http status detail)) = a := by simpa using told
    rcases cause with harmless | split
    · obtain rfl : created = [] := of_decide_eq_true harmless
      cases mine
    · rw [whole] at split
      cases split
  | _ => simp [marks_eq_map] at told

private theorem rejected_whole_batch {items : List BatchItem} {speakers : SpeakerView}
    {ids : List JobId} {raiseAt : Option Nat} {created : List JobId} {status : Nat}
    {detail : String} (h : Reach (server cfg) anyStep tr s)
    (taken : step cfg s (.submitBatch items speakers ids raiseAt) = some (s₁, o))
    (told : .batch created (.error (.http status detail)) ∈ o)
    (whole : splitsBatch cfg s (.submitBatch items speakers ids raiseAt) = false) :
    BatchUndone cfg created (tr ++ o) s₁ ∧ ∀ j ∈ created, s₁.phase j = none := by
  obtain ⟨before, a, b, o₁, after, there, change, told₁, rest, parts⟩ :=
    (step_changes taken).exists_change told
  have allowed : ∀ a b o, Change cfg s (.submitBatch items speakers ids raiseAt) a b o →
      Allowed cfg anyStep a b o := fun _ _ _ change => ⟨_, _, trivial, change⟩
  have visit_a : Visit cfg anyStep (tr ++ before) a := (visit_of_reach h).trans (there.mono allowed)
  have visit_b : Visit cfg anyStep (tr ++ before ++ o₁) b := visit_a.next trivial change
  have visit₁ : Visit cfg anyStep (tr ++ o) s₁ := by
    rw [parts, ← List.append_assoc, ← List.append_assoc]
    exact visit_b.trans (rest.mono allowed)
  have fate : ∀ j ∈ created, Buried j b ∧ j ∈ b.jobs.keys ∧ ∃ item, item.jobId = j ∧
      .rejected item ∈ o₁ := fun j mine => rejected_now visit_a whole change told₁ mine
  have buried : ∀ j ∈ created, Buried j s₁ := fun j mine =>
    visit_b.keeps (rest.mono allowed) (fate j mine).1 fun visit _ change now =>
      now.step change.grows.1 (change.job visit j)
  refine ⟨⟨fun j mine => ?_, fun tr' s' run j mine => ?_, fun tr' s' run j mine r w sent => ?_⟩,
    fun j mine => (buried j mine).1.2⟩
  · have there : j ∈ s₁.jobs.keys :=
      visit_b.keeps_along rest allowed (fate j mine).2.1 fun visit change now =>
        (change.job visit j).present (by simp) whole now
    obtain ⟨job, found⟩ := (Dict.mem_keys_iff _ _).mp there
    rw [found, Option.map_some, (buried j mine).2 job found]
  · have still : Buried j s' :=
      visit₁.keeps (chain_of_run run) (buried j mine) fun visit _ change now =>
        now.step change.grows.1 (change.job visit j)
    exact still.2
  · obtain ⟨item, rfl, refused⟩ := (fate j mine).2.2
    have visit' : Visit cfg anyStep (tr ++ o ++ tr') s' := visit₁.trans (chain_of_run run)
    have told' : .rejected item ∈ tr ++ o ++ tr' := by
      rw [parts]
      simp [refused]
    exact fun same => (rejected_unknown visit' told').2
      (List.mem_map.mpr ⟨r, dispatched_request visit' sent, same⟩)

/-- A rejected batch is undone, and none of its jobs is queued any more, exactly if it has not
been split. -/
theorem rejected_batch_undone {items : List BatchItem} {speakers : SpeakerView}
    {ids : List JobId} {raiseAt : Option Nat} {created : List JobId} {status : Nat}
    {detail : String} (h : Reach (server cfg) anyStep tr s)
    (taken : step cfg s (.submitBatch items speakers ids raiseAt) = some (s₁, o))
    (told : .batch created (.error (.http status detail)) ∈ o) :
    (BatchUndone cfg created (tr ++ o) s₁ ∧ ∀ j ∈ created, s₁.phase j = none) ↔
      splitsBatch cfg s (.submitBatch items speakers ids raiseAt) = false := by
  refine ⟨fun ⟨_, idle⟩ => ?_, rejected_whole_batch h taken told⟩
  by_contra split
  obtain ⟨r, j, queued, mine⟩ := split_leaves_item taken (by simpa using split) told
  have waits : s₁.phase j = some .early := by
    have here : (s₁.items.any fun item => item.stores && item.jobId = j) = true :=
      List.any_eq_true.mpr ⟨_, List.mem_append_right _ queued, decide_eq_true rfl⟩
    rw [State.phase, if_pos here]
  rw [idle j mine] at waits
  cases waits

/-- One job in a queue with room for one, and then a batch of two. -/
def waitingJob : List Event := [.submitTts sayHello noSpeakers "c" false]

def lateBatch : Event := .submitBatch [sayHello, sayHello] noSpeakers ["a", "b"] none

private theorem waitingJob_runs : (runOf oneSlot waitingJob).isSome = true := by decide +kernel

private theorem lateBatch_steps :
    (step oneSlot ((runOf oneSlot waitingJob).get waitingJob_runs).1 lateBatch).isSome = true := by
  decide +kernel

theorem rejected_batch_undone_full_queue :
    BatchUndone oneSlot ["a"]
      (((runOf oneSlot waitingJob).get waitingJob_runs).2 ++
        ((step oneSlot ((runOf oneSlot waitingJob).get waitingJob_runs).1 lateBatch).get
          lateBatch_steps).2)
      ((step oneSlot ((runOf oneSlot waitingJob).get waitingJob_runs).1 lateBatch).get
        lateBatch_steps).1 ∧
    ∀ j ∈ ["a"], ((step oneSlot ((runOf oneSlot waitingJob).get waitingJob_runs).1 lateBatch).get
      lateBatch_steps).1.phase j = none :=
  (@rejected_batch_undone oneSlot _ _ _ _ _ _ _ _ _ 503
    "Request queue is full (1/1). Try again later." (reach_of_exec waitingJob_runs)
    (Option.some_get lateBatch_steps).symm (by decide +kernel)).mpr (by decide +kernel)

private theorem earlyBatch_steps : (step oneSlot (State.init oneSlot) lateBatch).isSome = true := by
  decide +kernel

private theorem earlyBatch_drains : (exec (server oneSlot) anyStep
    ((step oneSlot (State.init oneSlot) lateBatch).get earlyBatch_steps).1 [.resumeDrain]).isSome =
      true := by decide +kernel

/-- A batch that is split is rejected, and its first item is dispatched all the same. -/
theorem split_batch_dispatched :
    ¬ ∀ cfg tr s items speakers ids raiseAt s₁ o created status detail,
      Reach (server cfg) anyStep tr s →
      step cfg s (.submitBatch items speakers ids raiseAt) = some (s₁, o) →
      .batch created (.error (.http status detail)) ∈ o →
      BatchUndone cfg created (tr ++ o) s₁ := by
  intro all
  have undone := all oneSlot [] _ _ _ _ _ _ _ ["a", "b"] 503
    "Request queue is full (1/1). Try again later." .refl
    (Option.some_get earlyBatch_steps).symm (by decide +kernel)
  have run := run_of_exec (Option.some_get earlyBatch_drains).symm
  have taken : ("a", 0) ∈ Ledger.taken (slotLog ((exec (server oneSlot) anyStep
      ((step oneSlot (State.init oneSlot) lateBatch).get earlyBatch_steps).1
      [.resumeDrain]).get earlyBatch_drains).2) := by decide +kernel
  obtain ⟨r, sent, named⟩ := mem_taken.mp taken
  exact undone.undispatched _ _ run "a" (by simp) r 0 (List.mem_append_right _ sent) named

/-! ### Open jobs and their carriers -/

/-- An item or a task that has the job's callback before it, or is saving its audio. -/
inductive Carried (s : State) (j : JobId) : Prop
  | queued {item : QueuedItem} (here : item ∈ s.queue) (stores : item.stores = true)
      (named : item.jobId = j)
  | draining {item : QueuedItem} (here : s.drain.item? = some item)
      (alive : s.drain ≠ .raised item) (stores : item.stores = true) (named : item.jobId = j)
  | collecting {w : WorkerRef} {r : Request} {fmt : AudioFormat} {dir : Path} {t : ℚ}
      {pc : CollectPc} (here : s.tasks j = some (.collector w r (.store j fmt dir) t pc))
      (alive : pc ≠ .saveRaised ∧ pc ≠ .ended)

structure NotStranded (s : State) : Prop where
  carried : ∀ j job, s.jobs.get? j = some job → job.status.terminal = false → Carried s j
  /-- Where a collector has ended, the cleanup may remove the record. -/
  ended : ∀ j w r cb t, s.tasks j = some (.collector w r cb t .ended) →
    ∀ job, s.jobs.get? j = some job → job.status.terminal = true

/-- Neither `save_audio` raises nor, for a job that exists, `make_queue`. -/
def nothingRaises (_ : State) (e : Event) : Prop :=
  e.saveRaises = false ∧ e.makeQueueRaises = false

instance (s : State) (e : Event) : Decidable (nothingRaises s e) :=
  inferInstanceAs (Decidable (_ ∧ _))

/-- An open record has a carrier in the phase that fits. -/
def OpenCarried (j : JobId) (s : State) : Prop :=
  ∀ job, s.jobs.get? j = some job → (job.status = .pending → s.phase j = some .early) ∧
    (job.status = .running → s.phase j = some .saving)

private theorem OpenCarried.step {j : JobId} (h : OpenCarried j s) (safe : nothingRaises s₀ e)
    (step : JobStep cfg s₀ s s' e o j) : OpenCarried j s' := by
  intro job' found
  cases step with
  | same record phase =>
    obtain ⟨job, there, same⟩ := outcome_of_map record found
    rw [phase, show job'.status = job.status from congrArg Prod.fst same]
    exact h job there
  | queued _ _ record phase | turnedAway _ _ record phase =>
    rw [found] at record
    simp [phase, Option.some.inj record]
  | stranded raises =>
    rw [safe.2] at raises
    cases raises
  | refused _ _ record => simp [record job' found]
  | runs _ record phase | fails _ record phase | finishes _ record phase =>
    obtain ⟨job, -, status⟩ := status_of_map record found
    simp [status, phase]
  | raises event =>
    have fine := safe.1
    rw [event] at fine
    cases fine
  | evicted _ _ _ gone =>
    rw [gone] at found
    cases found

theorem open_carried (safe : ∀ s e, P s e → nothingRaises s e) (h : Visit cfg P tr s)
    (j : JobId) : OpenCarried j s := by
  induction h using visit_induction with
  | start => simp [OpenCarried, State.init]
  | change before ih meets change => exact ih.step (safe _ _ meets) (change.job before j)

private theorem carried_of_phase (h : Visit cfg P tr s) {j : JobId} {phase : Phase}
    (carrier : s.phase j = some phase) : Carried s j := by
  unfold State.phase at carrier
  split_ifs at carrier with items
  · obtain ⟨item, member, mine⟩ := List.any_eq_true.mp items
    simp only [Bool.and_eq_true, decide_eq_true_eq] at mine
    rcases List.mem_append.mp member with held | waiting
    · exact .draining (by simpa using held) (drain_alive h item) mine.1 mine.2
    · exact .queued waiting mine.1 mine.2
  · obtain ⟨t, task, carries⟩ := Option.bind_eq_some_iff.mp carrier
    cases t with
    | collector w r cb t pc =>
      obtain rfl := (collector_serves h task).1
      cases cb with
      | store k fmt dir =>
        refine .collecting task ⟨?_, ?_⟩ <;> rintro rfl <;> cases carries
      | bridge k => cases carries
    | stream r pc => cases carries
    | clone w r pc => cases carries

/-- As long as nothing raises between a job's creation and its end, it has a live carrier. -/
theorem no_job_stranded (h : Reach (server cfg) nothingRaises tr s) : NotStranded s := by
  have visit := visit_of_reach h
  have carries := fun j => open_carried (fun _ _ safe => safe) visit j
  refine ⟨fun j job found open_ => ?_, fun j w r cb t task job found => ?_⟩
  · cases status : job.status with
    | pending => exact carried_of_phase visit ((carries j job found).1 status)
    | running => exact carried_of_phase visit ((carries j job found).2 status)
    | done | failed => rw [status] at open_; cases open_
  · have ended : s.phase j = none := by
      rw [phase_of_task visit task rfl]
      cases cb <;> rfl
    cases status : job.status with
    | pending =>
      have carrier := (carries j job found).1 status
      rw [ended] at carrier
      cases carrier
    | running =>
      have carrier := (carries j job found).2 status
      rw [ended] at carrier
      cases carrier
    | done | failed => rfl

private theorem oneJob_safe :
    (exec (server oneWorker) nothingRaises (server oneWorker).init oneJob).isSome = true := by
  decide +kernel

theorem no_job_stranded_one_job :
    NotStranded ((exec (server oneWorker) nothingRaises (server oneWorker).init oneJob).get
      oneJob_safe).1 :=
  no_job_stranded (reach_of_exec oneJob_safe)

/-- The job of `oneJob`, with a disk that is full. -/
def fullDisk : List Event := oneJob ++ [.saveRaise "a", .resume "a"]

private theorem fullDisk_runs : (runOf oneWorker fullDisk).isSome = true := by decide +kernel

/-- A job whose audio could not be saved keeps running although its collector has ended. -/
theorem job_stranded : ¬ ∀ cfg tr s, Reach (server cfg) anyStep tr s → NotStranded s := by
  intro all
  have safe : NotStranded ((runOf oneWorker fullDisk).get fullDisk_runs).1 :=
    all oneWorker _ _ (reach_of_exec fullDisk_runs)
  have running : (((runOf oneWorker fullDisk).get fullDisk_runs).1.jobs.get? "a").map Job.status =
      some .running := by decide +kernel
  have ended : (((runOf oneWorker fullDisk).get fullDisk_runs).1.tasks "a").map Task.finished =
      some true := by decide +kernel
  have items : ((runOf oneWorker fullDisk).get fullDisk_runs).1.items = [] := by decide +kernel
  obtain ⟨job, found, status⟩ := Option.map_eq_some_iff.mp running
  have carrier := safe.carried "a" job found (by rw [status]; rfl)
  have idle := List.append_eq_nil_iff.mp items
  cases carrier with
  | queued here => simp [idle.2] at here
  | draining here => simp [here] at idle
  | @collecting w r fmt dir t pc here alive =>
    rw [here] at ended
    cases pc <;> simp [Task.finished] at ended alive

end XttsServer.Guarantees
