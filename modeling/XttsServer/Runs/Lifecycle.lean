import XttsServer.Runs.Delivery

/-!
What each change does to one job: to its record, to the place where its callback
waits to be called, and to the statuses it has taken.
-/

set_option autoImplicit false
set_option relaxedAutoImplicit false

namespace XttsServer.Model

open XttsServer.Foundations XttsServer.Foundations.Transition

variable {cfg : Config} {P : State → Event → Prop} {s s' s₀ : State} {e : Event}
  {tr tr' o : List Obs}

/-! ### Where a job is carried -/

inductive Phase
  /-- The callback has yet to be called. -/
  | early
  /-- The callback is saving the audio. -/
  | saving
  deriving DecidableEq

def CollectPc.phase : CollectPc → Option Phase
  | .ready => some .early
  | .getting _ => some .early
  | .got _ _ => some .early
  | .saving _ _ => some .saving
  | .saved => some .saving
  | .saveRaised => none
  | .ended => none

def Task.phase : Task → Option Phase
  | .collector _ _ (.store _ _ _) _ pc => pc.phase
  | _ => none

def QueuedItem.stores (item : QueuedItem) : Bool :=
  match item.onComplete with
  | some (.store _ _ _) => true
  | _ => false

/-- The phase of the task or of the item that carries the job. -/
def State.phase (s : State) (j : JobId) : Option Phase :=
  if s.items.any fun item => item.stores && item.jobId = j then some .early
  else (s.tasks j).bind Task.phase

theorem phase_congr (items : s'.items = s.items) (tasks : s'.tasks = s.tasks) (j : JobId) :
    s'.phase j = s.phase j := by
  rw [State.phase, State.phase, items, tasks]

private theorem phase_update {k : JobId} {t t' : Task} (task : s.tasks k = some t)
    (items : s'.items = s.items) (tasks : s'.tasks = Function.update s.tasks k (some t'))
    (kept : t'.phase = t.phase) (j : JobId) : s'.phase j = s.phase j := by
  rw [State.phase, State.phase, items, tasks]
  by_cases here : j = k
  · subst here
    rw [Function.update_self, task, Option.bind_some, Option.bind_some, kept]
  · rw [Function.update_of_ne here]

private theorem phase_update_of_ne {k : JobId} (t' : Task) (items : s'.items = s.items)
    (tasks : s'.tasks = Function.update s.tasks k (some t')) {j : JobId} (other : j ≠ k) :
    s'.phase j = s.phase j := by
  rw [State.phase, State.phase, items, tasks, Function.update_of_ne other]

private theorem not_carried (h : Visit cfg P tr s) {j : JobId} {t : Task}
    (task : s.tasks j = some t) (busy : t.idle = false) :
    (s.items.any fun item => item.stores && item.jobId = j) = false := by
  rw [List.any_eq_false]
  intro item member carries
  have other := ((placed h).unclaimed item member).ne_of_busy task busy
  simp [other] at carries

theorem phase_of_task (h : Visit cfg P tr s) {j : JobId} {t : Task} (task : s.tasks j = some t)
    (busy : t.idle = false) : s.phase j = t.phase := by
  simp [State.phase, not_carried h task busy, task]

theorem phase_update_self (h : Visit cfg P tr s) {j : JobId} {t t' : Task}
    (task : s.tasks j = some t) (busy : t.idle = false) (items : s'.items = s.items)
    (tasks : s'.tasks = Function.update s.tasks j (some t')) : s'.phase j = t'.phase := by
  rw [State.phase, items, tasks]
  simp [not_carried h task busy]

theorem used_of_phase (h : Visit cfg P tr s) {j : JobId} {phase : Phase}
    (carrier : s.phase j = some phase) : j ∈ s.used := by
  unfold State.phase at carrier
  split_ifs at carrier with items
  · obtain ⟨item, member, mine⟩ := List.any_eq_true.mp items
    simp only [Bool.and_eq_true, decide_eq_true_eq] at mine
    exact mine.2 ▸ items_used h member
  · obtain ⟨t, task, -⟩ := Option.bind_eq_some_iff.mp carrier
    exact used_of_task h (placed h) task

theorem phase_of_fresh (h : Visit cfg P tr s) {j : JobId} (fresh : s.canDraw j) :
    s.phase j = none := by
  by_contra there
  obtain ⟨phase, carrier⟩ := Option.ne_none_iff_exists'.mp there
  exact fresh.2 (used_of_phase h carrier)

theorem phase_queue {item : QueuedItem} (items : s'.items = s.items ++ [item])
    (tasks : s'.tasks = s.tasks) (j : JobId) :
    s'.phase j = if item.stores && item.jobId = j then some .early else s.phase j := by
  rw [State.phase, State.phase, items, tasks, List.any_append]
  by_cases mine : (item.stores && decide (item.jobId = j)) = true <;> simp [mine]

private theorem Task.phase_deliver {t : Task} {t0 : ℚ} (blocked : t.getting? = some t0)
    (outcome : GetOutcome) : (t.deliver outcome).phase = t.phase := by
  cases t with
  | collector w r cb at' pc =>
    cases pc <;> simp only [Task.getting?] at blocked <;> try contradiction
    cases cb <;> rfl
  | stream r pc => cases pc <;> rfl
  | clone w r pc => cases pc <;> rfl

private theorem Move.phase {now : ℚ} {k : JobId} {t t' : Task} {frame : Option Frame}
    (h : Move cfg now k e t t' frame) : t'.phase = t.phase ∨
      e = .saveRaise k ∧ t.phase = some .saving ∧ t'.phase = none := by
  cases h with
  | @saveRaise w r cb =>
    cases cb with
    | store => exact .inr ⟨rfl, rfl, rfl⟩
    | bridge => exact .inl rfl
  | @collectorStart w r cb | @collectorRaised w r cb => cases cb <;> exact .inl rfl
  | timeout blocked => exact .inl (Task.phase_deliver blocked _)
  | error blocked => exact .inl (Task.phase_deliver blocked _)
  | _ => exact .inl rfl

private theorem stores_of_task {gone : Prop} {tasks : JobId → Option Task} {item : QueuedItem}
    {t : Task} (proper : item.Proper cfg) (unclaimed : Unclaimed gone tasks item)
    (task : tasks item.jobId = some t) : item.stores = false := by
  cases proper with
  | @job now r cb =>
    have free : tasks (jobItem now r cb).jobId = none := unclaimed
    rw [task] at free
    cases free
  | stream => rfl

private theorem phase_handedOver (h : Visit cfg P tr s) {item : QueuedItem} {w : WorkerRef}
    (loop : s.drain = .put item w) (j : JobId) :
    ({ s with drain := .getting, tasks := (handOver s item w).tasks } : State).phase j =
      s.phase j := by
  have items := items_of_put loop
  obtain ⟨proper, unclaimed⟩ := proper_of_put h loop
  have apart := items_nodup h
  rw [items, List.map_cons, List.nodup_cons] at apart
  have after : ({ s with drain := .getting, tasks := (handOver s item w).tasks } : State).items =
      s.queue := rfl
  rw [State.phase, State.phase, after, items, List.any_cons]
  dsimp only
  by_cases here : j = item.jobId
  · subst here
    have alone : (s.queue.any fun i => i.stores && i.jobId = item.jobId) = false := by
      rw [List.any_eq_false]
      intro i hi carries
      simp only [Bool.and_eq_true, decide_eq_true_eq] at carries
      exact apart.1 (carries.2 ▸ List.mem_map_of_mem hi)
    rw [alone]
    rcases handedOver_cases h loop with
      ⟨cb, callback, free, tasks⟩ | ⟨waits, tasks⟩ | ⟨dead, tasks⟩
    · rw [tasks, Function.update_self, free]
      cases cb <;> simp [QueuedItem.stores, callback, Task.phase, CollectPc.phase]
    · rw [tasks, Function.update_self, waits, stores_of_task proper unclaimed waits]
      rfl
    · rw [tasks, dead, stores_of_task proper unclaimed dead]
      rfl
  · have other : ¬ item.jobId = j := fun same => here same.symm
    have tasks : (handOver s item w).tasks j = s.tasks j := by
      rcases handedOver_cases h loop with
        ⟨cb, -, -, tasks⟩ | ⟨-, tasks⟩ | ⟨-, tasks⟩ <;> simp [tasks, here]
    rw [tasks]
    simp [other]

/-- A drain loop over at least one worker never ends. -/
theorem drain_alive (h : Visit cfg P tr s) (item : QueuedItem) : s.drain ≠ .raised item := by
  induction h using visit_induction with
  | start => simp [State.init]
  | @change s₀ e s s' tr o before ih meets change =>
    cases change with
    | drainRaises _ picked =>
      obtain ⟨w, some_worker⟩ := pickWorker_isSome (workers_ne_nil before)
      rw [some_worker] at picked
      cases picked
    | drainWaits | drainDispatches | drainPut | handedOver => simp
    | collected _ _ _ slot | leave _ _ slot | cloneDone _ _ slot =>
      exact fun raised => ih (slot.drain_of (by simp) raised)
    | _ => exact ih

/-! ### What a change does to a job -/

/-- Either the record of the job is as it was, apart from its path, or one of the ways in which
`create`, the `mark_*` methods and the eviction touch it. -/
inductive JobStep (cfg : Config) (s₀ s s' : State) (e : Event) (o : List Obs) (j : JobId) : Prop
  | same (record : (s'.jobs.get? j).map Job.outcome = (s.jobs.get? j).map Job.outcome)
      (phase : s'.phase j = s.phase j) (silent : history o j = [])
  | queued (fresh : j ∉ s.used) (drawn : j ∈ s'.used)
      (record : (s'.jobs.get? j).map Job.status = some .pending)
      (phase : s'.phase j = some .early) (told : history o j = [.pending])
  | turnedAway (fresh : j ∉ s.used) (drawn : j ∈ s'.used)
      (record : (s'.jobs.get? j).map Job.status = some .failed)
      (phase : s'.phase j = none) (told : history o j = [.pending, .failed])
  | stranded (raises : e.makeQueueRaises = true) (fresh : j ∉ s.used) (drawn : j ∈ s'.used)
      (record : (s'.jobs.get? j).map Job.status = some .pending)
      (phase : s'.phase j = none) (told : history o j = [.pending])
  | refused (split : splitsBatch cfg s₀ e = true)
      (was : j ∉ s.used ∨ (s.jobs.get? j).map Job.status = some .pending)
      (record : ∀ job, s'.jobs.get? j = some job → job.status = .failed)
      (phase : s'.phase j = s.phase j) (told : .done ∉ history o j)
  | runs (was : s.phase j = some .early)
      (record : (s'.jobs.get? j).map Job.status = (s.jobs.get? j).map fun _ => .running)
      (phase : s'.phase j = some .saving)
      (told : history o j = if j ∈ s.jobs.keys then [.running] else [])
  | fails (was : s.phase j = some .early)
      (record : (s'.jobs.get? j).map Job.status = (s.jobs.get? j).map fun _ => .failed)
      (phase : s'.phase j = none)
      (told : history o j = if j ∈ s.jobs.keys then [.running, .failed] else [])
  | finishes (was : s.phase j = some .saving)
      (record : (s'.jobs.get? j).map Job.status = (s.jobs.get? j).map fun _ => .done)
      (phase : s'.phase j = none)
      (told : history o j = if j ∈ s.jobs.keys then [.done] else [])
      (timed : ∀ job, s'.jobs.get? j = some job → job.finishedAt.isSome = true)
  | raises (event : e = .saveRaise j) (was : s.phase j = some .saving)
      (record : s'.jobs.get? j = s.jobs.get? j) (phase : s'.phase j = none)
      (silent : history o j = [])
  | evicted {job : Job} {failures : List Path} (event : e = .evict failures)
      (record : s.jobs.get? j = some job) (ended : job.status.terminal = true)
      (gone : s'.jobs.get? j = none) (phase : s'.phase j = s.phase j) (silent : history o j = [])

private theorem JobStep.still {j : JobId} (jobs : s'.jobs.get? j = s.jobs.get? j)
    (phase : s'.phase j = s.phase j) (silent : history o j = []) : JobStep cfg s₀ s s' e o j :=
  .same (by rw [jobs]) phase silent

theorem onComplete_store {k : JobId} {fmt : AudioFormat} {dir : Path} {w : WorkerRef}
    {result : SynthesisResult} {ms : ℚ} {jobs : JobStore}
    {futures : JobId → Option SynthesisResult} {statuses : List JobStatus} {next : CollectPc}
    {handle : WorkerHandle} (found : s.workers[w]? = some handle)
    (call : onComplete s (.store k fmt dir) w result ms =
      (({ s with jobs, resultFutures := futures }, statuses.map (.marked k)), next)) :
    (next = .saving result false ∧
      jobs = s.jobs.markRunning s.now k handle.workerId handle.gpuIndex ms ∧
      statuses = if k ∈ s.jobs.keys then [.running] else []) ∨
    (next = .ended ∧
      (∃ error, jobs = (s.jobs.markRunning s.now k handle.workerId handle.gpuIndex ms).markFailed
        s.now k error) ∧
      statuses = if k ∈ s.jobs.keys then [.running, .failed] else []) := by
  have statuses_inj : ∀ a b : List JobStatus, a.map (Obs.marked k) = b.map (Obs.marked k) → a = b :=
    fun a b same => (List.map_injective_iff.mpr fun x y h => by simpa using h) same
  have jobs_eq := congrArg (fun r => r.1.1.jobs) call
  have told := congrArg (fun r => r.1.2) call
  have next_eq := congrArg Prod.snd call
  simp only [onComplete, markRunning, found] at jobs_eq told next_eq
  have quiet : (if k ∈ s.jobs.keys then [Obs.marked k .running] else []) =
      statuses.map (.marked k) → statuses = if k ∈ s.jobs.keys then [.running] else [] := by
    intro told
    refine statuses_inj _ _ ?_
    rw [← told]
    split_ifs <;> rfl
  cases failure : result.error with
  | none =>
    simp only [failure] at jobs_eq told next_eq
    exact .inl ⟨next_eq.symm, jobs_eq.symm, quiet told⟩
  | some error =>
    by_cases empty : error = ""
    · simp only [failure, empty] at jobs_eq told next_eq
      exact .inl ⟨next_eq.symm, jobs_eq.symm, quiet told⟩
    · have keys : (s.jobs.markRunning s.now k handle.workerId handle.gpuIndex ms).keys =
          s.jobs.keys := Dict.keys_modify _ _ _
      simp only [failure, ne_eq, empty, not_false_eq_true, if_true, markFailed,
        keys] at jobs_eq told next_eq
      refine .inr ⟨next_eq.symm, ⟨error, jobs_eq.symm⟩, statuses_inj _ _ ?_⟩
      rw [← told]
      split_ifs <;> rfl

theorem collector_handle (h : Visit cfg P tr s) {j : JobId} {w : WorkerRef} {r : Request}
    {cb : OnComplete} {t ms : ℚ} {pc : CollectPc} {workers : List WorkerHandle} {drain : DrainPc}
    {i : Option WorkerRef} (task : s.tasks j = some (.collector w r cb t pc))
    (slot : s.releases w ms r.jobId workers drain i) :
    ∃ handle : WorkerHandle, workers[w]? = some handle := by
  have range : w < s.workers.length := dispatched_range h (collector_dispatched h task)
  rw [← slot.length] at range
  exact ⟨_, List.getElem?_eq_getElem range⟩

private theorem history_other {j k : JobId} (other : j ≠ k) (statuses : List JobStatus) :
    history (statuses.map (.marked k)) j = [] := by
  have there : ¬ k = j := fun same => other same.symm
  simp [there, Function.comp_def]

private theorem history_own (j : JobId) (statuses : List JobStatus) :
    history (statuses.map (.marked j)) j = statuses := by
  simp [Function.comp_def]

private theorem JobStep.aside {j k : JobId} {t t' : Task} (task : s.tasks k = some t)
    (tasks : s'.tasks = Function.update s.tasks k (some t')) (items : s'.items = s.items)
    (kept : t'.phase = t.phase) (jobs : s'.jobs = s.jobs) (silent : history o j = []) :
    JobStep cfg s₀ s s' e o j :=
  .still (by rw [jobs]) (phase_update task items tasks kept j) silent

private theorem JobStep.spawned (before : Visit cfg P tr s) {j k : JobId} {t : Task}
    (fresh : s.canDraw k) (tasks : s'.tasks = Function.update s.tasks k (some t))
    (idle : t.phase = none) (items : ∀ item, item ∈ s'.items → item.stores → item ∈ s.items)
    (more : s.items ⊆ s'.items) (jobs : s'.jobs = s.jobs) (silent : history o j = []) :
    JobStep cfg s₀ s s' e o j := by
  refine .still (by rw [jobs]) ?_ silent
  have carried : (s'.items.any fun item => item.stores && item.jobId = j) =
      s.items.any fun item => item.stores && item.jobId = j := by
    rw [Bool.eq_iff_iff, List.any_eq_true, List.any_eq_true]
    constructor
    · rintro ⟨item, member, mine⟩
      exact ⟨item, items item member (Bool.and_eq_true_iff.mp mine).1, mine⟩
    · exact fun ⟨item, member, mine⟩ => ⟨item, more member, mine⟩
  rw [State.phase, State.phase, carried, tasks]
  by_cases here : j = k
  · subst here
    rw [Function.update_self, Option.bind_some, idle, tasks_of_fresh before (placed before) fresh]
    rfl
  · rw [Function.update_of_ne here]

private theorem JobStep.of_queued (r : Resolved) {k : JobId} (fresh : s.canDraw k)
    (used : s'.used = k :: s.used)
    (jobs : s'.jobs = s.jobs.create s.now k r.text r.language r.speakerId)
    (items : s'.items = s.items ++ [storeItem cfg s r k]) (tasks : s'.tasks = s.tasks) (j : JobId) :
    JobStep cfg s₀ s s' e [.created k, .accepted (storeItem cfg s r k)] j := by
  have phase := phase_queue items tasks j
  have stores : (storeItem cfg s r k).stores = true := rfl
  have named : (storeItem cfg s r k).jobId = k := rfl
  rw [stores, named, Bool.true_and] at phase
  by_cases here : j = k
  · subst here
    exact .queued fresh.2 (used ▸ List.mem_cons_self) (jobs ▸ JobStore.status_create ..)
      (by simpa using phase) (by simp)
  · have there : ¬ k = j := fun same => here same.symm
    exact .still (jobs ▸ JobStore.get?_create_of_ne _ _ _ _ _ _ here) (by simpa [there] using phase)
      (by simp [there])

private theorem JobStep.of_turnedAway (before : Visit cfg P tr s) (r : Resolved) (text : String)
    {k : JobId} (fresh : s.canDraw k) (used : s'.used = k :: s.used)
    (jobs : s'.jobs = (s.jobs.create s.now k r.text r.language r.speakerId).markFailed s.now k text)
    (items : s'.items = s.items) (tasks : s'.tasks = s.tasks)
    (told : ∀ j, history o j = if j = k then [.pending, .failed] else []) (j : JobId) :
    JobStep cfg s₀ s s' e o j := by
  have phase := phase_congr items tasks j
  by_cases here : j = k
  · subst here
    refine .turnedAway fresh.2 (used ▸ List.mem_cons_self) ?_
      (phase.trans (phase_of_fresh before fresh)) ((told j).trans (if_pos rfl))
    have found := JobStore.status_create s.jobs s.now j r.text r.language r.speakerId
    obtain ⟨job, present, -⟩ := Option.map_eq_some_iff.mp found
    rw [jobs, JobStore.markFailed, Dict.get?_modify, if_pos rfl, present]
    rfl
  · refine .still ?_ phase ((told j).trans (if_neg here))
    rw [jobs, JobStore.markFailed, Dict.get?_modify, if_neg here]
    exact JobStore.get?_create_of_ne _ _ _ _ _ _ here

private theorem JobStep.of_raised (before : Visit cfg P tr s) (r : Resolved) {k : JobId}
    (fresh : s.canDraw k) (raises : e.makeQueueRaises = true) (used : s'.used = k :: s.used)
    (jobs : s'.jobs = s.jobs.create s.now k r.text r.language r.speakerId)
    (items : s'.items = s.items) (tasks : s'.tasks = s.tasks) (j : JobId) :
    JobStep cfg s₀ s s' e [.created k] j := by
  have phase := phase_congr items tasks j
  by_cases here : j = k
  · subst here
    exact .stranded raises fresh.2 (used ▸ List.mem_cons_self) (jobs ▸ JobStore.status_create ..)
      (phase.trans (phase_of_fresh before fresh)) (by simp)
  · have there : ¬ k = j := fun same => here same.symm
    exact .still (jobs ▸ JobStore.get?_create_of_ne _ _ _ _ _ _ here) phase (by simp [there])

theorem mem_history_failMarks {jobs : JobStore} {ids : List JobId} {j : JobId}
    {status : JobStatus} (told : status ∈ history (failMarks jobs ids) j) :
    status = .failed ∧ j ∈ ids := by
  obtain ⟨x, member, same⟩ := List.mem_filterMap.mp told
  obtain ⟨i, marked, rfl⟩ := List.mem_map.mp member
  by_cases here : i = j
  · simp only [Obs.status?, here, if_true, Option.some.injEq] at same
    exact ⟨same.symm, here ▸ (List.mem_filter.mp marked).1⟩
  · simp [here] at same

private theorem JobStep.of_refused (r : Resolved) (text : String) {k : JobId} {created : List JobId}
    {item : QueuedItem} (fresh : s.canDraw k)
    (waiting : ∀ i ∈ created, (s.jobs.get? i).map Job.status = some .pending)
    (split : splitsBatch cfg s₀ e = true)
    (jobs : s'.jobs = (s.jobs.create s.now k r.text r.language r.speakerId).failAll s.now text
      (created ++ [k]))
    (items : s'.items = s.items) (tasks : s'.tasks = s.tasks) (j : JobId) :
    JobStep cfg s₀ s s' e ([.created k, .rejected item] ++
      failMarks (s.jobs.create s.now k r.text r.language r.speakerId) (created ++ [k])) j := by
  have phase := phase_congr items tasks j
  by_cases here : j ∈ created ++ [k]
  · refine .refused split ?_ (fun job found => ?_) phase fun done => ?_
    · rcases List.mem_append.mp here with old | new
      · exact .inr (waiting j old)
      · exact .inl (List.mem_singleton.mp new ▸ fresh.2)
    · rw [jobs] at found
      exact JobStore.failed_of_failAll _ _ _ _ (.inl here) found
    · rw [history, List.filterMap_append] at done
      rcases List.mem_append.mp done with told | marked
      · obtain ⟨x, member, status⟩ := List.mem_filterMap.mp told
        rcases List.mem_pair.mp member with rfl | rfl <;> simp at status
      · cases (mem_history_failMarks marked).1
  · have apart : j ≠ k := fun same => here (by simp [same])
    have there : ¬ k = j := fun same => apart same.symm
    refine .still ?_ phase ?_
    · rw [jobs]
      exact (JobStore.get?_failAll_of_notMem _ _ _ _ here).trans
        (JobStore.get?_create_of_ne _ _ _ _ _ _ apart)
    · have none : history (failMarks (s.jobs.create s.now k r.text r.language r.speakerId)
          (created ++ [k])) j = [] :=
        List.eq_nil_iff_forall_not_mem.mpr fun _ told => here (mem_history_failMarks told).2
      rw [history, List.filterMap_append]
      simpa [there] using none

private theorem JobStep.of_collected (before : Visit cfg P tr s) {k b : JobId} {w : WorkerRef}
    {r : Request} {fmt : AudioFormat} {dir : Path} {t t0 ms : ℚ} {outcome : GetOutcome}
    {result : SynthesisResult} {workers : List WorkerHandle} {drain : DrainPc}
    {i : Option WorkerRef} {next : CollectPc} {jobs : JobStore}
    {futures : JobId → Option SynthesisResult} {statuses : List JobStatus}
    (task : s.tasks k = some (.collector w r (.store b fmt dir) t (.got t0 outcome)))
    (slot : s.releases w ms r.jobId workers drain i)
    (call : onComplete { s with workers, drain } (.store b fmt dir) w result ms =
      (({ s with workers, drain, jobs, resultFutures := futures }, statuses.map (.marked b)), next))
    (jobs' : s'.jobs = jobs) (items : s'.items = s.items)
    (tasks : s'.tasks = Function.update s.tasks k
      (some (.collector w r (.store b fmt dir) t next)))
    (told : ∀ j, history o j = if j = b then statuses else []) (j : JobId) :
    JobStep cfg s₀ s s' e o j := by
  have named : b = k := (collector_serves before task).1
  subst named
  obtain ⟨handle, found⟩ := collector_handle before task slot
  have called := onComplete_store found call
  by_cases here : j = b
  · subst here
    have was : s.phase j = some .early := phase_of_task before task rfl
    have phase := phase_update_self before task rfl items tasks
    have told' := (told j).trans (if_pos rfl)
    rcases called with ⟨rfl, rfl, rfl⟩ | ⟨rfl, ⟨error, rfl⟩, rfl⟩
    · refine .runs was ?_ phase told'
      rw [jobs', JobStore.markRunning, Dict.get?_modify, if_pos rfl, Option.map_map]
      rfl
    · refine .fails was ?_ phase told'
      rw [jobs', JobStore.markFailed, Dict.get?_modify, if_pos rfl, JobStore.markRunning,
        Dict.get?_modify, if_pos rfl, Option.map_map, Option.map_map]
      rfl
  · refine .still ?_ (phase_update_of_ne _ items tasks here) ((told j).trans (if_neg here))
    rw [jobs']
    rcases called with ⟨-, rfl, -⟩ | ⟨-, ⟨error, rfl⟩, -⟩
    · exact (Dict.get?_modify ..).trans (if_neg here)
    · exact (Dict.get?_modify ..).trans ((if_neg here).trans
        ((Dict.get?_modify ..).trans (if_neg here)))

private theorem JobStep.of_saved (before : Visit cfg P tr s) {k b : JobId} {w : WorkerRef}
    {r : Request} {fmt : AudioFormat} {dir : Path} {t : ℚ}
    (task : s.tasks k = some (.collector w r (.store b fmt dir) t .saved))
    (jobs : s'.jobs = s.jobs.markDone s.now b (audioPath dir b fmt)) (items : s'.items = s.items)
    (tasks : s'.tasks = Function.update s.tasks k
      (some (.collector w r (.store b fmt dir) t .ended))) (j : JobId) :
    JobStep cfg s₀ s s' e (marks s.jobs b .done) j := by
  have named : b = k := (collector_serves before task).1
  subst named
  rw [marks_eq_map]
  by_cases here : j = b
  · subst here
    have record := Dict.get?_modify s.jobs j (fun job => job.markDone s.now (audioPath dir j fmt)) j
    rw [if_pos rfl, ← JobStore.markDone, ← jobs] at record
    refine .finishes (phase_of_task before task rfl) ?_
      (phase_update_self before task rfl items tasks) (history_own j _) fun job found => ?_
    · rw [record, Option.map_map]
      rfl
    · obtain ⟨old, -, rfl⟩ := Option.map_eq_some_iff.mp (record.symm.trans found)
      rfl
  · refine .still ?_ (phase_update_of_ne _ items tasks here) (history_other here _)
    rw [jobs]
    exact (Dict.get?_modify ..).trans (if_neg here)

private theorem JobStep.of_evicted {failures : List Path} (event : e = .evict failures)
    (jobs : s'.jobs = (evictExpired s.jobs s.files s.now cfg.settings.jobTtlSeconds failures).1)
    (items : s'.items = s.items) (tasks : s'.tasks = s.tasks) (j : JobId) :
    JobStep cfg s₀ s s' e [] j := by
  have phase := phase_congr items tasks j
  have kept := get?_evictExpired s.jobs s.files s.now cfg.settings.jobTtlSeconds failures j
  rw [← jobs] at kept
  cases found : s.jobs.get? j with
  | none =>
    rw [found] at kept
    exact .still (kept.trans found.symm) phase rfl
  | some job =>
    rw [found, Option.filter_some] at kept
    by_cases old : job.expired (s.now - cfg.settings.jobTtlSeconds) = true
    · have ended : job.status.terminal = true := by
        simp only [Job.expired, Bool.and_eq_true] at old
        exact old.1
      exact .evicted event found ended (by simpa [old] using kept) phase rfl
    · refine .still ?_ phase rfl
      rw [found]
      simpa [old] using kept

theorem Change.job (before : Visit cfg P tr s) (change : Change cfg s₀ e s s' o) (j : JobId) :
    JobStep cfg s₀ s s' e o j := by
  cases change with
  | @jobQueued s r k fresh =>
    refine .of_queued r fresh ?_ ?_ ?_ ?_ j
    · rfl
    · rfl
    · simp [State.items]
    · rfl
  | @jobTurnedAway s r k text answer fresh full told =>
    have told' : ∀ j, history [.created k, .rejected (storeItem cfg s r k), .marked k .failed,
        answer] j = if j = k then [.pending, .failed] else [] := by
      intro j
      by_cases here : j = k
      · rcases told with rfl | rfl <;> simp [here]
      · have there : ¬ k = j := fun same => here same.symm
        rcases told with rfl | rfl <;> simp [here, there]
    refine .of_turnedAway before r text fresh ?_ ?_ ?_ ?_ told' j <;> rfl
  | @jobRaised s r k fresh raises =>
    refine .of_raised before r fresh raises ?_ ?_ ?_ ?_ j <;> rfl
  | @batchRefused s r k created text fresh waiting split =>
    refine .of_refused r text fresh waiting split ?_ ?_ ?_ j <;> rfl
  | @bridgeQueued s r k fresh =>
    refine .still rfl ((@phase_queue s _ (jobItem s.now (r.toRequest k s.nextQueue) (.bridge k))
      ?_ ?_ j).trans ?_) (by simp)
    · simp [State.items]
    · rfl
    · simp [jobItem, QueuedItem.stores]
  | @streamQueued s request fresh =>
    refine .spawned before fresh rfl rfl (fun item member stores => ?_) (fun item member => ?_) rfl
      (by simp)
    · obtain old | rfl : item ∈ s.items ∨ item = streamItem s.now request := by
        simpa [State.items, or_assoc] using member
      · exact old
      · cases stores
    · rcases List.mem_append.mp member with held | waiting
      · exact List.mem_append_left _ held
      · exact List.mem_append_right _ (List.mem_append_left _ waiting)
  | cloneStart _ fresh =>
    exact .spawned before fresh rfl rfl (fun _ member _ => member) (fun _ member => member) rfl
      (by simp)
  | @answered _ a answer =>
    refine .still rfl rfl ?_
    cases a <;> simp [Obs.isAnswer] at answer ⊢
  | drainWaits hand | drainRaises hand | drainDispatches _ _ hand =>
    refine .still rfl (phase_congr ?_ ?_ j) (by simp)
    · rw [hand.items]
      simp [State.items, DrainPc.item?]
    · rfl
  | drainPut loop =>
    refine .still rfl (phase_congr ?_ ?_ j) (by simp)
    · simp [State.items, loop, DrainPc.item?]
    · rfl
  | handedOver loop => exact .still rfl (phase_handedOver before loop j) (by simp)
  | @move k t t' frame task move =>
    have silent : history (frame.toList.map (.frame k)) j = [] := by simp [Function.comp_def]
    rcases move.phase with kept | ⟨event, saving, ended⟩
    · exact .aside task rfl rfl kept rfl silent
    · by_cases here : j = k
      · subst here
        refine .raises event ?_ rfl ?_ silent
        · rw [phase_of_task before task move.busy, saving]
        · refine (phase_update_self before task move.busy ?_ ?_).trans ended <;> rfl
      · refine .still rfl (phase_update_of_ne t' ?_ ?_ here) silent <;> rfl
  | getReply task blocked => exact .aside task rfl rfl (Task.phase_deliver blocked _) rfl (by simp)
  | @collected k w r cb t t0 outcome result workers drain i next jobs futures statuses event task
      value slot call =>
    cases cb with
    | bridge b =>
      have jobs_eq := congrArg (fun r => r.1.1.jobs) call
      have told := congrArg (fun r => r.1.2) call
      simp only [onComplete] at jobs_eq told
      refine .aside task rfl ?_ rfl jobs_eq.symm ?_
      · simp [State.items, slot.item?]
      · simp [← told, Function.comp_def]
    | store b fmt dir =>
      refine .of_collected before task slot call rfl ?_ rfl (fun j => ?_) j
      · simp [State.items, slot.item?]
      · by_cases here : j = b
        · simp [here, OnComplete.jobId, Function.comp_def]
        · have there : ¬ b = j := fun same => here same.symm
          simp [here, there, OnComplete.jobId, Function.comp_def]
  | leave task _ slot | cloneDone _ task slot =>
    refine .aside task rfl ?_ rfl rfl (by simp [Function.comp_def])
    simp [State.items, slot.item?]
  | clonePut task | cancelAwaiting _ task | cancelAssigned _ task | saveOpen task
  | saveWrite task => exact .aside task rfl rfl rfl rfl (by simp)
  | saved task => refine .of_saved before task ?_ ?_ ?_ j <;> rfl
  | @deleteAfterSend g k path =>
    refine .same ?_ (phase_congr rfl rfl j) (by simp)
    dsimp only
    rw [JobStore.clearAudioPath, Dict.get?_modify]
    by_cases here : j = k
    · rw [if_pos here, here, Option.map_map]
      rfl
    · rw [if_neg here]
  | evict event pass =>
    refine .of_evicted event ?_ ?_ ?_ j
    · rw [pass]
    · rfl
    · rfl
  | _ => exact .still rfl (phase_congr rfl rfl j) (by simp)

theorem JobStep.present {j : JobId} (step : JobStep cfg s₀ s s' e o j)
    (kept : ∀ failures, e ≠ .evict failures) (whole : splitsBatch cfg s₀ e = false)
    (there : j ∈ s.jobs.keys) : j ∈ s'.jobs.keys := by
  rw [Dict.mem_keys_iff, ← Option.isSome_iff_exists] at there ⊢
  have of_map : ∀ {α : Type} {f g : Job → α},
      (s'.jobs.get? j).map f = (s.jobs.get? j).map g → (s'.jobs.get? j).isSome = true := by
    intro α f g record
    rw [← Option.isSome_map, record, Option.isSome_map]
    exact there
  have of_some : ∀ {status : JobStatus},
      (s'.jobs.get? j).map Job.status = some status → (s'.jobs.get? j).isSome = true := by
    intro status record
    rw [← Option.isSome_map, record]
    rfl
  cases step with
  | same record | runs _ record | fails _ record | finishes _ record => exact of_map record
  | queued _ _ record | turnedAway _ _ record | stranded _ _ _ record => exact of_some record
  | refused split =>
    rw [whole] at split
    cases split
  | raises _ _ record => rwa [record]
  | evicted event => exact absurd event (kept _)

def Closed (s : State) (j : JobId) : Prop := j ∈ s.used ∧ s.phase j = none

theorem JobStep.closed {j : JobId} (step : JobStep cfg s₀ s s' e o j) (h : Closed s j)
    (used : s.used ⊆ s'.used) : Closed s' j := by
  obtain ⟨drawn, idle⟩ := h
  cases step with
  | same _ phase | refused _ _ _ phase | evicted _ _ _ _ phase =>
    exact ⟨used drawn, phase.trans idle⟩
  | queued fresh | turnedAway fresh | stranded _ fresh => exact absurd drawn fresh
  | runs was | fails was | finishes was | raises _ was =>
    rw [idle] at was
    cases was

/-! ### The life of a job -/

/-- The statuses of a job from its creation on. -/
inductive LifePath : List JobStatus → Prop
  | unborn : LifePath []
  | pending : LifePath [.pending]
  | running : LifePath [.pending, .running]
  | done : LifePath [.pending, .running, .done]
  | failed : LifePath [.pending, .running, .failed]
  | refused : LifePath [.pending, .failed]

/-- The statuses of a job, its record and its carrier agree. -/
structure Life (tr : List Obs) (s : State) (j : JobId) : Prop where
  path : LifePath (history tr j)
  drawn : history tr j ≠ [] → j ∈ s.used
  record : ∀ job, s.jobs.get? j = some job → (history tr j).getLast? = some job.status
  gone : s.jobs.get? j = none → ∀ status, (history tr j).getLast? = some status →
    status.terminal = true
  early : s.phase j = some .early → history tr j = [.pending]
  saving : s.phase j = some .saving → history tr j = [.pending, .running]

theorem status_of_map {jobs jobs' : JobStore} {j : JobId} {f : Job → JobStatus} {job' : Job}
    (record : (jobs'.get? j).map Job.status = (jobs.get? j).map f)
    (found : jobs'.get? j = some job') : ∃ job, jobs.get? j = some job ∧ job'.status = f job := by
  rw [found, Option.map_some, eq_comm, Option.map_eq_some_iff] at record
  exact record.imp fun job same => ⟨same.1, same.2.symm⟩

theorem outcome_of_map {jobs jobs' : JobStore} {j : JobId} {job' : Job}
    (record : (jobs'.get? j).map Job.outcome = (jobs.get? j).map Job.outcome)
    (found : jobs'.get? j = some job') :
    ∃ job, jobs.get? j = some job ∧ job'.outcome = job.outcome := by
  rw [found, Option.map_some, eq_comm, Option.map_eq_some_iff] at record
  exact record.imp fun job same => ⟨same.1, same.2.symm⟩

private theorem Life.unborn {j : JobId} (h : Life tr s j) (fresh : j ∉ s.used) :
    history tr j = [] := by
  by_contra born
  exact fresh (h.drawn born)

theorem Life.present {j : JobId} (h : Life tr s j) {status : JobStatus}
    (last : (history tr j).getLast? = some status) (open_ : status.terminal = false) :
    j ∈ s.jobs.keys := by
  by_contra absent
  rw [← Dict.get?_eq_none_iff] at absent
  rw [h.gone absent status last] at open_
  cases open_

private theorem Life.of_record {j : JobId} {statuses : List JobStatus} {status : JobStatus}
    (path : LifePath statuses) (told : history tr j = statuses)
    (last : statuses.getLast? = some status) (drawn : j ∈ s.used)
    (record : (s.jobs.get? j).map Job.status = some status)
    (early : s.phase j = some .early → statuses = [.pending])
    (saving : s.phase j = some .saving → statuses = [.pending, .running]) : Life tr s j := by
  subst told
  refine ⟨path, fun _ => drawn, fun job found => ?_, fun absent => ?_, early, saving⟩
  · rw [found, Option.map_some] at record
    rw [last, ← record]
  · rw [absent] at record
    cases record

private theorem Life.takes {j : JobId} (h : Life tr s j) (used : s.used ⊆ s'.used)
    {past new : List JobStatus} {last status : JobStatus} (was : history tr j = past)
    (here : past.getLast? = some last) (running : last.terminal = false)
    (told : history tr' j = history tr j ++ if j ∈ s.jobs.keys then new else [])
    (path : LifePath (past ++ new)) (next : (past ++ new).getLast? = some status)
    (record : (s'.jobs.get? j).map Job.status = (s.jobs.get? j).map fun _ => status)
    (early : s'.phase j = some .early → past ++ new = [.pending])
    (saving : s'.phase j = some .saving → past ++ new = [.pending, .running]) :
    Life tr' s' j := by
  subst was
  have present : j ∈ s.jobs.keys := h.present here running
  obtain ⟨job, found⟩ := (Dict.mem_keys_iff _ _).mp present
  have born : history tr j ≠ [] := fun none => by
    rw [none] at here
    cases here
  refine .of_record path ?_ next (used (h.drawn born)) ?_ early saving
  · rw [told, if_pos present]
  · rw [record, found, Option.map_some]

private theorem Life.keep {j : JobId} (h : Life tr s j) (told : history tr' j = history tr j)
    (used : s.used ⊆ s'.used) (phase : s'.phase j = s.phase j ∨ s'.phase j = none)
    (record : ∀ job', s'.jobs.get? j = some job' →
      ∃ job, s.jobs.get? j = some job ∧ job'.status = job.status)
    (gone : s'.jobs.get? j = none → s.jobs.get? j = none ∨
      ∃ job, s.jobs.get? j = some job ∧ job.status.terminal = true) : Life tr' s' j := by
  refine ⟨told ▸ h.path, fun born => used (h.drawn (told ▸ born)), ?_, ?_, ?_, ?_⟩
  · intro job' found
    obtain ⟨job, there, same⟩ := record job' found
    rw [told, same, h.record job there]
  · intro absent status last
    rw [told] at last
    rcases gone absent with before | ⟨job, there, ended⟩
    · exact h.gone before status last
    · rw [h.record job there] at last
      exact Option.some.inj last ▸ ended
  · intro waits
    rcases phase with same | none
    · exact told ▸ h.early (same ▸ waits)
    · rw [none] at waits
      cases waits
  · intro waits
    rcases phase with same | none
    · exact told ▸ h.saving (same ▸ waits)
    · rw [none] at waits
      cases waits

/-- One change keeps the life of a job on its path, unless it splits a batch. -/
theorem Life.step {j : JobId} (h : Life tr s j) (used : s.used ⊆ s'.used)
    (whole : splitsBatch cfg s₀ e = false) (step : JobStep cfg s₀ s s' e o j) :
    Life (tr ++ o) s' j := by
  have split : history (tr ++ o) j = history tr j ++ history o j := List.filterMap_append
  cases step with
  | same record phase silent =>
    refine h.keep (by rw [split, silent, List.append_nil]) used (.inl phase) ?_ ?_
    · intro job' found
      obtain ⟨job, there, same⟩ := outcome_of_map record found
      exact ⟨job, there, congrArg Prod.fst same⟩
    · intro absent
      rw [absent, Option.map_none, eq_comm, Option.map_eq_none_iff] at record
      exact .inl record
  | queued fresh drawn record phase told =>
    refine .of_record .pending ?_ rfl drawn record (fun _ => rfl) (by simp [phase])
    rw [split, h.unborn fresh, told]
    rfl
  | turnedAway fresh drawn record phase told =>
    refine .of_record .refused ?_ rfl drawn record (by simp [phase]) (by simp [phase])
    rw [split, h.unborn fresh, told]
    rfl
  | stranded _ fresh drawn record phase told =>
    refine .of_record .pending ?_ rfl drawn record (by simp [phase]) (by simp [phase])
    rw [split, h.unborn fresh, told]
    rfl
  | refused split => rw [whole] at split; cases split
  | runs was record phase told =>
    exact h.takes used (h.early was) rfl rfl (by rw [split, told]) .running rfl record
      (by simp [phase]) fun _ => rfl
  | fails was record phase told =>
    exact h.takes used (h.early was) rfl rfl (by rw [split, told]) .failed rfl record
      (by simp [phase]) (by simp [phase])
  | finishes was record phase told =>
    exact h.takes used (h.saving was) rfl rfl (by rw [split, told]) .done rfl record
      (by simp [phase]) (by simp [phase])
  | raises _ _ record phase silent =>
    refine h.keep (by rw [split, silent, List.append_nil]) used (.inr phase) ?_ ?_
    · exact fun job' found => ⟨job', record ▸ found, rfl⟩
    · exact fun absent => .inl (record ▸ absent)
  | evicted _ record ended gone phase silent =>
    refine h.keep (by rw [split, silent, List.append_nil]) used (.inl phase) ?_ ?_
    · intro job' found
      rw [gone] at found
      cases found
    · exact fun _ => .inr ⟨_, record, ended⟩

theorem life (whole : ∀ s e, P s e → splitsBatch cfg s e = false) (h : Visit cfg P tr s)
    (j : JobId) : Life tr s j := by
  induction h using visit_induction with
  | start =>
    have idle : (State.init cfg).phase j = none := by
      simp [State.phase, State.items, State.init, DrainPc.item?]
    exact ⟨.unborn, by simp, by simp [State.init], by simp, by simp [idle], by simp [idle]⟩
  | change before ih meets change =>
    exact ih.step change.grows.1 (whole _ _ meets) (change.job before j)

end XttsServer.Model
