import XttsServer.Runs.Lifecycle

/-!
The records of the jobs in full: what each change makes of one, and that status,
times, error and path of a record always fit together.
-/

set_option autoImplicit false
set_option relaxedAutoImplicit false

namespace XttsServer.Model

open XttsServer.Foundations XttsServer.Foundations.Transition

variable {cfg : Config} {P : State → Event → Prop} {s s' s₀ : State} {e : Event}
  {tr tr' o : List Obs}

/-! ### Since when a result is waited for -/

/-- The `t0` of `_collect_result`. -/
def Task.since : Task → Option ℚ
  | .collector _ _ _ _ (.getting t0) => some t0
  | .collector _ _ _ _ (.got t0 _) => some t0
  | _ => none

def State.since (s : State) (j : JobId) : Option ℚ := (s.tasks j).bind Task.since

theorem since_of_task {j : JobId} {t : Task} (task : s.tasks j = some t) : s.since j = t.since := by
  rw [State.since, task, Option.bind_some]

private theorem since_update {k : JobId} {t : Task}
    (tasks : s'.tasks = Function.update s.tasks k (some t)) (j : JobId) :
    s'.since j = if j = k then t.since else s.since j := by
  split_ifs with here
  · subst here
    rw [State.since, tasks, Function.update_self, Option.bind_some]
  · rw [State.since, State.since, tasks, Function.update_of_ne here]

private theorem Task.since_deliver {t : Task} {t0 : ℚ} (blocked : t.getting? = some t0)
    (outcome : GetOutcome) : (t.deliver outcome).since = t.since := by
  cases t with
  | collector w r cb at' pc =>
    cases pc <;> simp only [Task.getting?] at blocked <;> try contradiction
    rfl
  | stream r pc => cases pc <;> rfl
  | clone w r pc => cases pc <;> rfl

private theorem Move.since {now t0 : ℚ} {k : JobId} {t t' : Task} {frame : Option Frame}
    (h : Move cfg now k e t t' frame) (waits : t'.since = some t0) :
    t.since = some t0 ∨ t0 = now := by
  cases h with
  | collectorStart => exact .inr (Option.some.inj waits).symm
  | timeout blocked | error blocked =>
    rw [Task.since_deliver blocked] at waits
    exact .inl waits
  | _ => cases waits

theorem Change.since (before : Visit cfg P tr s) (change : Change cfg s₀ e s s' o) {j : JobId}
    {t0 : ℚ} (waits : s'.since j = some t0) : s.since j = some t0 ∨ t0 = s.now := by
  have other : ∀ {k : JobId} {t : Task}, t.since = none →
      s'.tasks = Function.update s.tasks k (some t) → s.since j = some t0 := by
    intro k t idle tasks
    rw [since_update tasks] at waits
    split_ifs at waits
    · rw [idle] at waits
      cases waits
    · exact waits
  cases change with
  | streamQueued | cloneStart | clonePut | cloneDone | cancelAwaiting | cancelAssigned | leave
  | saveOpen | saveWrite | saved => exact .inl (other rfl rfl)
  | @handedOver item w loop =>
    rcases handedOver_cases before loop with ⟨cb, -, -, tasks⟩ | ⟨-, tasks⟩ | ⟨-, tasks⟩
    · exact .inl (other rfl tasks)
    · exact .inl (other rfl tasks)
    · rw [State.since] at waits
      dsimp only at waits
      rw [tasks] at waits
      exact .inl waits
  | @move k t t' frame task move =>
    rw [since_update rfl] at waits
    split_ifs at waits with here
    · subst here
      exact (move.since waits).imp (fun waited => (since_of_task task).trans waited) id
    · exact .inl waits
  | @getReply k t t1 m rest task blocked =>
    rw [since_update rfl] at waits
    split_ifs at waits with here
    · subst here
      rw [Task.since_deliver blocked] at waits
      exact .inl ((since_of_task task).trans waits)
    · exact .inl waits
  | @collected k w r cb t t1 outcome result workers drain i next _ _ _ _ _ _ _ call =>
    refine .inl (other ?_ rfl)
    have settled := onComplete_holds call
    cases next with
    | getting | got => cases settled
    | _ => rfl
  | _ => exact .inl waits

/-! ### What a change makes of a record -/

/-- A record as `create` makes it. -/
structure Job.Pristine (now : ℚ) (job : Job) : Prop where
  status : job.status = .pending
  created : job.createdAt = now
  started : job.startedAt = none
  finished : job.finishedAt = none
  path : job.audioPath = none
  error : job.error = none

inductive RecordStep (cfg : Config) (s₀ s s' : State) (e : Event) (j : JobId) : Prop
  | same (record : s'.jobs.get? j = s.jobs.get? j)
  | created {job : Job} (fresh : j ∉ s.used) (pristine : job.Pristine s.now)
      (record : s'.jobs.get? j = some job)
  | turnedAway {job : Job} {text : String} (fresh : j ∉ s.used) (pristine : job.Pristine s.now)
      (record : s'.jobs.get? j = some (job.markFailed s.now text))
  | refused (split : splitsBatch cfg s₀ e = true)
      (was : j ∉ s.used ∨ (s.jobs.get? j).map Job.status = some .pending)
  | runs {workerId : String} {gpuIndex : Int} {t0 : ℚ} (was : s.phase j = some .early)
      (waited : s.since j = some t0)
      (record : s'.jobs.get? j = (s.jobs.get? j).map fun job =>
        job.markRunning s.now workerId gpuIndex ((s.now - t0) * 1000))
  | fails {workerId : String} {gpuIndex : Int} {t0 : ℚ} {error : String}
      (was : s.phase j = some .early) (waited : s.since j = some t0)
      (record : s'.jobs.get? j = (s.jobs.get? j).map fun job =>
        (job.markRunning s.now workerId gpuIndex ((s.now - t0) * 1000)).markFailed s.now error)
  | finishes {path : Path} (was : s.phase j = some .saving)
      (record : s'.jobs.get? j = (s.jobs.get? j).map fun job => job.markDone s.now path)
  | cleared (record : s'.jobs.get? j = (s.jobs.get? j).map Job.clearAudioPath)
  | evicted (gone : s'.jobs.get? j = none)

theorem JobStore.get?_create (store : JobStore) (now : ℚ) (k : JobId) (text lang spk : String) :
    ∃ job : Job, job.Pristine now ∧
      ∀ j, (store.create now k text lang spk).get? j = if j = k then some job else store.get? j :=
  ⟨_, ⟨rfl, rfl, rfl, rfl, rfl, rfl⟩, fun _ => Dict.get?_set _ _ _ _⟩

private theorem RecordStep.of_create (r : Resolved) {k : JobId} (fresh : s.canDraw k)
    (jobs : s'.jobs = s.jobs.create s.now k r.text r.language r.speakerId) (j : JobId) :
    RecordStep cfg s₀ s s' e j := by
  obtain ⟨job, pristine, records⟩ := s.jobs.get?_create s.now k r.text r.language r.speakerId
  have record := records j
  rw [← jobs] at record
  split_ifs at record with here
  · exact .created (here ▸ fresh.2) pristine record
  · exact .same record

private theorem RecordStep.of_refusal (r : Resolved) (text : String) {k : JobId}
    (fresh : s.canDraw k)
    (jobs : s'.jobs = (s.jobs.create s.now k r.text r.language r.speakerId).markFailed s.now k text)
    (j : JobId) : RecordStep cfg s₀ s s' e j := by
  obtain ⟨job, pristine, records⟩ := s.jobs.get?_create s.now k r.text r.language r.speakerId
  have record := Dict.get?_modify (s.jobs.create s.now k r.text r.language r.speakerId) k
    (fun job => job.markFailed s.now text) j
  have created := records j
  rw [← JobStore.markFailed, ← jobs] at record
  split_ifs at record created with here
  · subst here
    rw [created, Option.map_some] at record
    exact .turnedAway fresh.2 pristine record
  · exact .same (record.trans created)

private theorem RecordStep.of_collected (before : Visit cfg P tr s) {k b : JobId} {w : WorkerRef}
    {r : Request} {fmt : AudioFormat} {dir : Path} {t t0 : ℚ} {outcome : GetOutcome}
    {result : SynthesisResult} {workers : List WorkerHandle} {drain : DrainPc}
    {i : Option WorkerRef} {next : CollectPc} {jobs : JobStore}
    {futures : JobId → Option SynthesisResult} {statuses : List JobStatus}
    (task : s.tasks k = some (.collector w r (.store b fmt dir) t (.got t0 outcome)))
    (slot : s.releases w ((s.now - t0) * 1000) r.jobId workers drain i)
    (call : onComplete { s with workers, drain } (.store b fmt dir) w result ((s.now - t0) * 1000) =
      (({ s with workers, drain, jobs, resultFutures := futures }, statuses.map (.marked b)), next))
    (jobs' : s'.jobs = jobs) (j : JobId) : RecordStep cfg s₀ s s' e j := by
  have named : b = k := (collector_serves before task).1
  subst named
  obtain ⟨handle, found⟩ := collector_handle before task slot
  have was : s.phase b = some .early := phase_of_task before task rfl
  have waited : s.since b = some t0 := since_of_task task
  have running := Dict.get?_modify s.jobs b (fun job =>
    job.markRunning s.now handle.workerId handle.gpuIndex ((s.now - t0) * 1000)) j
  rcases onComplete_store found call with ⟨-, same, -⟩ | ⟨-, ⟨error, same⟩, -⟩
  · rw [← JobStore.markRunning, ← same, ← jobs'] at running
    split_ifs at running with here
    · subst here
      exact .runs was waited running
    · exact .same running
  · have failed := Dict.get?_modify
      (s.jobs.markRunning s.now b handle.workerId handle.gpuIndex ((s.now - t0) * 1000)) b
      (fun job => job.markFailed s.now error) j
    rw [← JobStore.markFailed, ← same, ← jobs', JobStore.markRunning] at failed
    split_ifs at running failed with here
    · subst here
      rw [running, Option.map_map] at failed
      exact .fails was waited failed
    · exact .same (failed.trans running)

private theorem Change.record (before : Visit cfg P tr s) (change : Change cfg s₀ e s s' o)
    (j : JobId) : RecordStep cfg s₀ s s' e j := by
  cases change with
  | @jobQueued s r k fresh => exact .of_create r fresh rfl j
  | @jobRaised s r k fresh => exact .of_create r fresh rfl j
  | @jobTurnedAway s r k text _ fresh => exact .of_refusal r text fresh rfl j
  | @batchRefused s r k created text fresh waiting split =>
    by_cases here : j ∈ created ++ [k]
    · refine .refused split ?_
      rcases List.mem_append.mp here with old | new
      · exact .inr (waiting j old)
      · exact .inl (List.mem_singleton.mp new ▸ fresh.2)
    · refine .same ((JobStore.get?_failAll_of_notMem _ _ _ _ here).trans
        (JobStore.get?_create_of_ne _ _ _ _ _ _ fun same => here (by simp [same])))
  | @collected k w r cb t t0 outcome result workers drain i next jobs futures statuses event task
      value slot call =>
    cases cb with
    | bridge b =>
      have jobs_eq := congrArg (fun r => r.1.1.jobs) call
      simp only [onComplete] at jobs_eq
      exact .same (by rw [← jobs_eq])
    | store b fmt dir => exact .of_collected before task slot call rfl j
  | @saved k w r job fmt dir t task =>
    obtain rfl := (collector_serves before task).1
    have record :=
      Dict.get?_modify s.jobs job (fun old => old.markDone s.now (audioPath dir job fmt)) j
    split_ifs at record with here
    · subst here
      exact .finishes (phase_of_task before task rfl) record
    · exact .same record
  | @deleteAfterSend g k path =>
    have record := Dict.get?_modify s.jobs k Job.clearAudioPath j
    split_ifs at record with here
    · subst here
      exact .cleared record
    · exact .same record
  | @evict failures jobs files event pass =>
    have kept := get?_evictExpired s.jobs s.files s.now cfg.settings.jobTtlSeconds failures j
    rw [pass] at kept
    cases found : s.jobs.get? j with
    | none => exact .same (kept.trans (by rw [found, Option.filter_none]))
    | some job =>
      rw [found, Option.filter_some] at kept
      split_ifs at kept
      · exact .same (kept.trans found.symm)
      · exact .evicted kept
  | _ => exact .same rfl

/-! ### Coherence -/

/-- Status, times, error and path of a record fit together, and no time is yet to come. -/
structure Job.Coherent (now : ℚ) (job : Job) : Prop where
  pending : job.status = .pending →
    job.startedAt = none ∧ job.finishedAt = none ∧ job.error = none ∧ job.audioPath = none
  running : job.status = .running →
    job.startedAt.isSome = true ∧ job.finishedAt = none ∧ job.error = none ∧ job.audioPath = none
  done : job.status = .done →
    job.startedAt.isSome = true ∧ job.finishedAt.isSome = true ∧ job.error = none
  failed : job.status = .failed →
    job.finishedAt.isSome = true ∧ job.error.isSome = true ∧ job.audioPath = none
  created : job.createdAt ≤ now
  started : ∀ t, job.startedAt = some t → job.createdAt ≤ t ∧ t ≤ now
  finished : ∀ t, job.finishedAt = some t → job.createdAt ≤ t ∧ t ≤ now
  ordered : ∀ t u, job.startedAt = some t → job.finishedAt = some u → t ≤ u

namespace Job.Coherent

variable {now now' t0 : ℚ} {job : Job}

private theorem later (h : job.Coherent now) (forward : now ≤ now') : job.Coherent now' where
  pending := h.pending
  running := h.running
  done := h.done
  failed := h.failed
  created := h.created.trans forward
  started t at' := (h.started t at').imp_right fun past => past.trans forward
  finished t at' := (h.finished t at').imp_right fun past => past.trans forward
  ordered := h.ordered

private theorem of_pristine (h : job.Pristine now) : job.Coherent now := by
  refine ⟨fun _ => ⟨h.started, h.finished, h.error, h.path⟩, ?_, ?_, ?_, h.created.le, ?_, ?_, ?_⟩
  · simp [h.status]
  · simp [h.status]
  · simp [h.status]
  · simp [h.started]
  · simp [h.finished]
  · simp [h.started]

private theorem markRunning (h : job.Coherent now) (was : job.status = .pending) (workerId : String)
    (gpuIndex : Int) (earlier : job.createdAt ≤ t0) (past : t0 ≤ now) :
    (job.markRunning now workerId gpuIndex ((now - t0) * 1000)).Coherent now := by
  obtain ⟨-, finished, error, path⟩ := h.pending was
  have back : now - (now - t0) * 1000 / 1000 = t0 := by
    rw [mul_div_cancel_right₀ _ (by decide), sub_sub_cancel]
  have other {status : JobStatus} (differs : .running ≠ status) {p : Prop}
      (now_is : JobStatus.running = status) : p := absurd now_is differs
  refine ⟨other (by decide), fun _ => ⟨rfl, finished, error, path⟩, other (by decide),
    other (by decide), h.created, ?_, ?_, ?_⟩
  · rintro t at'
    obtain rfl : t0 = t := by simpa [Job.markRunning, back] using at'
    exact ⟨earlier, past⟩
  · exact fun t at' => absurd (finished.symm.trans at') (Option.some_ne_none t).symm
  · exact fun t u _ at' => absurd (finished.symm.trans at') (Option.some_ne_none u).symm

private theorem markDone (h : job.Coherent now) (was : job.status = .running) (path : Path) :
    (job.markDone now path).Coherent now := by
  obtain ⟨started, -, error, -⟩ := h.running was
  have other {status : JobStatus} (differs : .done ≠ status) {p : Prop}
      (now_is : JobStatus.done = status) : p := absurd now_is differs
  refine ⟨other (by decide), other (by decide), fun _ => ⟨started, rfl, error⟩,
    other (by decide), h.created, h.started, ?_, ?_⟩
  · intro t at'
    obtain rfl : now = t := Option.some.inj at'
    exact ⟨h.created, le_rfl⟩
  · intro t u at' end'
    obtain rfl : now = u := Option.some.inj end'
    exact (h.started t at').2

private theorem markFailed (h : job.Coherent now) (was : job.audioPath = none) (error : String) :
    (job.markFailed now error).Coherent now := by
  have other {status : JobStatus} (differs : .failed ≠ status) {p : Prop}
      (now_is : JobStatus.failed = status) : p := absurd now_is differs
  refine ⟨other (by decide), other (by decide), other (by decide), fun _ => ⟨rfl, rfl, was⟩,
    h.created, h.started, ?_, ?_⟩
  · intro t at'
    obtain rfl : now = t := Option.some.inj at'
    exact ⟨h.created, le_rfl⟩
  · intro t u at' end'
    obtain rfl : now = u := Option.some.inj end'
    exact (h.started t at').2

private theorem clearAudioPath (h : job.Coherent now) : job.clearAudioPath.Coherent now where
  pending was := (h.pending was).imp_right fun rest => ⟨rest.1, rest.2.1, rfl⟩
  running was := (h.running was).imp_right fun rest => ⟨rest.1, rest.2.1, rfl⟩
  done := h.done
  failed was := (h.failed was).imp_right fun rest => ⟨rest.1, rfl⟩
  created := h.created
  started := h.started
  finished := h.finished
  ordered := h.ordered

end Job.Coherent

/-! ### Over a run -/

theorem Life.status_early {j : JobId} {job : Job} (h : Life tr s j)
    (early : s.phase j = some .early) (found : s.jobs.get? j = some job) :
    job.status = .pending := by
  have last := h.record job found
  rw [h.early early] at last
  exact (Option.some.inj last).symm

theorem Life.status_saving {j : JobId} {job : Job} (h : Life tr s j)
    (saving : s.phase j = some .saving) (found : s.jobs.get? j = some job) :
    job.status = .running := by
  have last := h.record job found
  rw [h.saving saving] at last
  exact (Option.some.inj last).symm

theorem Change.forward (change : Change cfg s₀ e s s' o) : s.now ≤ s'.now := by
  cases change with
  | tick forward => exact le_add_of_nonneg_right forward
  | _ => exact le_rfl

theorem step_now (taken : step cfg s e = some (s', o)) :
    (∃ dt, e = .tick dt ∧ 0 ≤ dt ∧ s'.now = s.now + dt) ∨ s'.now = s.now := by
  by_cases ticks : ∃ dt, e = .tick dt
  · obtain ⟨dt, rfl⟩ := ticks
    simp only [step] at taken
    split_ifs at taken with forward
    obtain ⟨rfl, rfl⟩ := Prod.mk.inj (Option.some.inj taken)
    exact .inl ⟨dt, rfl, forward, rfl⟩
  · refine .inr ?_
    have changes := step_changes taken
    clear taken
    induction changes with
    | refl => rfl
    | tail _ change ih =>
      cases change with
      | tick _ event => exact absurd ⟨_, event⟩ ticks
      | _ => exact ih

theorem step_forward (taken : step cfg s e = some (s', o)) : s.now ≤ s'.now := by
  rcases step_now taken with ⟨dt, -, forward, later⟩ | same
  · exact later ▸ le_add_of_nonneg_right forward
  · exact same.ge

private theorem used_of_since (h : Visit cfg P tr s) {j : JobId} {t0 : ℚ}
    (waits : s.since j = some t0) :
    j ∈ s.used := by
  obtain ⟨t, task, -⟩ := Option.bind_eq_some_iff.mp waits
  exact used_of_task h (placed h) task

/-- All records are coherent, and no wait began before its job was created. -/
structure Timely (s : State) : Prop where
  records : ∀ j job, s.jobs.get? j = some job → job.Coherent s.now
  waits : ∀ j t0, s.since j = some t0 →
    t0 ≤ s.now ∧ ∀ job, s.jobs.get? j = some job → job.createdAt ≤ t0

private theorem Timely.record (h : Timely s) {j : JobId} (life : Life tr s j)
    (whole : splitsBatch cfg s₀ e = false) (step : RecordStep cfg s₀ s s' e j) {job' : Job}
    (found : s'.jobs.get? j = some job') : job'.Coherent s.now := by
  cases step with
  | same record => exact h.records j job' (record ▸ found)
  | created _ pristine record =>
    obtain rfl := Option.some.inj (record.symm.trans found)
    exact .of_pristine pristine
  | turnedAway _ pristine record =>
    obtain rfl := Option.some.inj (record.symm.trans found)
    exact (Job.Coherent.of_pristine pristine).markFailed pristine.path _
  | refused split =>
    rw [whole] at split
    cases split
  | runs was waited record =>
    obtain ⟨job, there, rfl⟩ := Option.map_eq_some_iff.mp (record.symm.trans found)
    obtain ⟨past, earlier⟩ := h.waits j _ waited
    exact (h.records j job there).markRunning (life.status_early was there) _ _
      (earlier job there) past
  | @fails workerId gpuIndex t0 error was waited record =>
    obtain ⟨job, there, rfl⟩ := Option.map_eq_some_iff.mp (record.symm.trans found)
    obtain ⟨past, earlier⟩ := h.waits j _ waited
    have pending := life.status_early was there
    have running := (h.records j job there).markRunning pending workerId gpuIndex
      (earlier job there) past
    exact running.markFailed ((h.records j job there).pending pending).2.2.2 _
  | finishes was record =>
    obtain ⟨job, there, rfl⟩ := Option.map_eq_some_iff.mp (record.symm.trans found)
    exact (h.records j job there).markDone (life.status_saving was there) _
  | cleared record =>
    obtain ⟨job, there, rfl⟩ := Option.map_eq_some_iff.mp (record.symm.trans found)
    exact (h.records j job there).clearAudioPath
  | evicted gone =>
    rw [gone] at found
    cases found

private theorem RecordStep.createdAt {j : JobId} (step : RecordStep cfg s₀ s s' e j)
    (whole : splitsBatch cfg s₀ e = false) {job' : Job} (found : s'.jobs.get? j = some job') :
    (∃ job, s.jobs.get? j = some job ∧ job'.createdAt = job.createdAt) ∨
      j ∉ s.used ∧ job'.createdAt = s.now := by
  cases step with
  | same record => exact .inl ⟨job', record ▸ found, rfl⟩
  | created fresh pristine record | turnedAway fresh pristine record =>
    obtain rfl := Option.some.inj (record.symm.trans found)
    exact .inr ⟨fresh, pristine.created⟩
  | refused split =>
    rw [whole] at split
    cases split
  | runs _ _ record | fails _ _ record | finishes _ record | cleared record =>
    obtain ⟨job, there, rfl⟩ := Option.map_eq_some_iff.mp (record.symm.trans found)
    exact .inl ⟨job, there, rfl⟩
  | evicted gone =>
    rw [gone] at found
    cases found

theorem timely (whole : ∀ s e, P s e → splitsBatch cfg s e = false) (h : Visit cfg P tr s) :
    Timely s := by
  induction h using visit_induction with
  | start => exact ⟨by simp [State.init], by simp [State.since, State.init]⟩
  | change before ih meets change =>
    have unsplit := whole _ _ meets
    have forward := change.forward
    refine ⟨fun j job' found => ?_, fun j t0 waits => ?_⟩
    · exact (ih.record (life whole before j) unsplit (change.record before j) found).later forward
    · rcases change.since before waits with waited | rfl
      · obtain ⟨past, earlier⟩ := ih.waits j t0 waited
        refine ⟨past.trans forward, fun job' found => ?_⟩
        rcases (change.record before j).createdAt unsplit found with ⟨job, there, same⟩ | ⟨fresh, -⟩
        · exact same ▸ earlier job there
        · exact absurd (used_of_since before waited) fresh
      · refine ⟨forward, fun job' found => ?_⟩
        rcases (change.record before j).createdAt unsplit found with ⟨job, there, same⟩ | ⟨-, now⟩
        · exact same ▸ (ih.records j job there).created
        · exact now.le

end XttsServer.Model
