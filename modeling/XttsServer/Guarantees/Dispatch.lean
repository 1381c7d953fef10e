import XttsServer.Guarantees.Slots

/-!
In which order, and to which workers, the drain loop dispatches what the queue
has accepted.
-/

set_option autoImplicit false
set_option relaxedAutoImplicit false

namespace XttsServer.Guarantees

open XttsServer.Model XttsServer.Foundations.Transition XttsServer.Foundations.LeastLoaded

variable {cfg : Config} {P : State → Event → Prop} {s s' s₀ : State} {e : Event}
  {tr o : List Obs}

/-! ### First in, first out -/

structure Fifo (tr : List Obs) (s : State) : Prop where
  /-- Accepted items are the drained ones, the one that the loop holds, and the queue. -/
  conserved : accepted tr =
    (drained tr).map Prod.fst ++ s.drain.undispatched?.toList ++ s.queue
  /-- What is dispatched, apart from latent computations, is what is drained. -/
  dispatched : queueDispatches tr = (drained tr).map fun p => (p.1.request, p.2)
  /-- No two accepted requests have the same id, and none is dispatched twice. -/
  distinct : ((accepted tr).map QueuedItem.jobId).Nodup
  once : ((queueDispatches tr).map fun p => p.1.jobId).Nodup
  rejected : ∀ item, .rejected item ∈ tr → ∀ r w, .dispatched r w ∈ tr → r.jobId ≠ item.jobId

private theorem queueDispatches_eq (h : Visit cfg P tr s) :
    queueDispatches tr = (drained tr).map fun p => (p.1.request, p.2) := by
  induction h using visit_induction with
  | start => rfl
  | @change s₀ e s s' tr o before ih meets change =>
    simp only [queueDispatches, drained, List.filterMap_append, List.map_append] at ih ⊢
    rw [ih]
    congr 1
    cases change with
    | jobTurnedAway _ _ told => rcases told with rfl | rfl <;> simp
    | @answered _ a answer => cases a <;> simp [Obs.isAnswer] at answer ⊢
    | @drainDispatches s item rest w _ _ hand =>
      have kind := undispatched_proper before (hand.undispatched ▸ List.mem_cons_self)
      cases kind <;> simp [jobItem, streamItem]
    | _ => simp [marks_eq_map, Function.comp_def]

theorem rejected_unknown (h : Visit cfg P tr s) {item : QueuedItem}
    (told : .rejected item ∈ tr) :
    item.jobId ∈ s.used ∧ item.jobId ∉ (requests tr).map Request.jobId := by
  induction h using visit_induction with
  | start => cases told
  | @change s₀ e s s' tr o before ih meets change =>
    have split : requests (tr ++ o) = requests tr ++ requests o := List.filterMap_append
    have used := change.grows.1
    rw [split, List.map_append, List.mem_append, not_or]
    rcases List.mem_append.mp told with old | new
    · obtain ⟨was_used, unknown⟩ := ih old
      refine ⟨used was_used, unknown, ?_⟩
      rcases change.registers (fun i => undispatched_proper before) with none | ⟨r, one, fresh, -⟩
      · simp [none]
      · have other : item.jobId ≠ r.jobId := fun same => fresh (same ▸ was_used)
        simpa [one] using other
    · have older : ∀ j, s.canDraw j → j ∉ (requests tr).map Request.jobId := by
        intro j fresh member
        obtain ⟨r, known, rfl⟩ := List.mem_map.mp member
        exact fresh.2 ((registered before).drawn r known)
      cases change with
      | @jobTurnedAway _ r j _ _ fresh _ answer =>
        rcases answer with rfl | rfl <;>
        · obtain rfl : item = storeItem cfg s r j := by simpa using new
          exact ⟨List.mem_cons_self, older j fresh, by simp⟩
      | @batchRefused _ r j created text fresh =>
        obtain rfl : item = storeItem cfg s r j := by simpa using new
        exact ⟨List.mem_cons_self, older j fresh, by simp⟩
      | @requestRefused _ i fresh =>
        obtain rfl : item = i := by simpa using new
        exact ⟨List.mem_cons_self, older _ fresh, by simp⟩
      | @answered _ a answer => cases a <;> simp [Obs.isAnswer] at answer new
      | _ => simp [marks_eq_map] at new

/-- Dispatch is first in, first out, and loses or duplicates nothing. -/
theorem fifo_dispatch (h : Reach (server cfg) anyStep tr s) : Fifo tr s := by
  have visit := visit_of_reach h
  have distinct := accepted_nodup visit
  refine ⟨?_, queueDispatches_eq visit, distinct, ?_, ?_⟩
  · rw [flow visit, List.append_assoc]
    rfl
  · rw [flow visit, List.map_append, List.nodup_append] at distinct
    rw [queueDispatches_eq visit, List.map_map]
    simpa [Function.comp_def, QueuedItem.jobId] using distinct.1
  · intro item told r w dispatched same
    refine (rejected_unknown visit told).2 ?_
    exact List.mem_map.mpr ⟨r, dispatched_request visit dispatched, same⟩

theorem fifo_dispatch_held_job : Fifo ((runOf oneWorker heldJob).get heldJob_runs).2
    ((runOf oneWorker heldJob).get heldJob_runs).1 := fifo_dispatch (reach_of_exec heldJob_runs)

/-! ### The worker that is picked -/

/-- A worker without active requests is on a GPU whose total no other GPU undercuts. -/
def IdleOnLeastGpu (workers : List WorkerHandle) : Prop :=
  IdleInLeastGroup (fun p : WorkerHandle × WorkerRef => p.1.gpuIndex) (fun p => p.1.activeRequests)
    workers.zipIdx

instance (workers : List WorkerHandle) : Decidable (IdleOnLeastGpu workers) :=
  inferInstanceAs (Decidable (IdleInLeastGroup _ _ _))

/-- Whatever the step drains goes to a worker without active requests. -/
def picksIdle (cfg : Config) (s : State) (e : Event) : Prop :=
  ∀ s' o item w, step cfg s e = some (s', o) → .drained item w ∈ o →
    ∃ handle, s.workers[w]? = some handle ∧ handle.activeRequests = 0

/-- If the step drains an item, an idle worker is on a least loaded GPU. -/
def leastGpuIdle (s : State) (e : Event) : Prop :=
  e = .resumeDrain → s.takesItem = true → allBusy s.workers = false → IdleOnLeastGpu s.workers

private theorem drained_now {item : QueuedItem} {w : WorkerRef} (change : Change cfg s₀ e s s' o)
    (told : .drained item w ∈ o) : s.workers = s₀.workers ∧ pickWorker s.workers = some w ∧
      e = .resumeDrain ∧ s₀.takesItem = true ∧ allBusy s.workers = false := by
  cases change with
  | drainDispatches event takes _ same free picked =>
    obtain ⟨-, rfl⟩ : item = _ ∧ w = _ := by simpa using told
    exact ⟨same, picked, event, takes, free⟩
  | jobTurnedAway _ _ told' => rcases told' with rfl | rfl <;> simp at told
  | @answered _ a answer => cases a <;> simp [Obs.isAnswer] at answer told
  | _ => simp [marks_eq_map] at told

private theorem picked_idle_iff {workers : List WorkerHandle} {w : WorkerRef}
    (picked : pickWorker workers = some w) :
    (∃ handle, workers[w]? = some handle ∧ handle.activeRequests = 0) ↔ IdleOnLeastGpu workers := by
  obtain ⟨handle, found, least⟩ := pickWorker_eq_some picked
  rw [IdleOnLeastGpu, ← leastLoaded_idle_iff least, found]
  simp

private theorem drainItem_drains {item : QueuedItem} {w : WorkerRef}
    (free : allBusy s.workers = false) (picked : pickWorker s.workers = some w) :
    .drained item w ∈ (drainItem s item).2 := by
  simp [drainItem, free, drainDispatch, picked, takeSlot]

private theorem drainTop_drains {w : WorkerRef} (some_item : s.queue ≠ [])
    (free : allBusy s.workers = false) (picked : pickWorker s.workers = some w) :
    ∃ item, .drained item w ∈ (drainTop s).2 := by
  cases queue : s.queue with
  | nil => exact absurd queue some_item
  | cons item rest =>
    refine ⟨item, ?_⟩
    simp only [drainTop, queue]
    exact drainItem_drains free picked

theorem resumeDrain_drains {w : WorkerRef} (takes : s.takesItem = true)
    (free : allBusy s.workers = false) (picked : pickWorker s.workers = some w) :
    ∃ s' o item, step cfg s .resumeDrain = some (s', o) ∧ .drained item w ∈ o := by
  simp only [step, resumeDrain]
  cases loop : s.drain with
  | getting =>
    have some_item : s.queue ≠ [] := by simpa [State.takesItem, loop] using takes
    obtain ⟨item, told⟩ := drainTop_drains some_item free picked
    exact ⟨_, _, item, if_neg some_item, told⟩
  | waiting item notified =>
    obtain rfl : notified = true := by simpa [State.takesItem, loop] using takes
    exact ⟨_, _, item, rfl, drainItem_drains free picked⟩
  | put item v =>
    have some_item : (handOver s item v).queue ≠ [] := by
      simpa [State.takesItem, loop] using takes
    obtain ⟨item', told⟩ := drainTop_drains some_item (by simpa using free) (by simpa using picked)
    exact ⟨_, _, item', rfl, told⟩
  | putting item v => simp [State.takesItem, loop] at takes
  | raised item => simp [State.takesItem, loop] at takes

/-- The routing rule and the waiting rule agree exactly on the states of `leastGpuIdle`. -/
private theorem picksIdle_iff (some_worker : s.workers ≠ []) :
    picksIdle cfg s e ↔ leastGpuIdle s e := by
  constructor
  · rintro idle rfl takes free
    obtain ⟨w, picked⟩ := pickWorker_isSome some_worker
    obtain ⟨s', o, item, taken, told⟩ := @resumeDrain_drains cfg s w takes free picked
    exact (picked_idle_iff picked).mp (idle s' o item w taken told)
  · intro least s' o item w taken told
    obtain ⟨before, a, b, o', -, -, change, told', -⟩ := (step_changes taken).exists_change told
    obtain ⟨same, picked, event, takes, free⟩ := drained_now change told'
    rw [same] at picked free
    exact (picked_idle_iff picked).mpr (least event takes free)

/-- The runs whose drained items all go to idle workers are the runs in which, at each pick, an
idle worker is on a least loaded GPU; and so it is with each next step of a run. -/
theorem drains_to_idle_iff (h : Reach (server cfg) anyStep tr s) :
    (Reach (server cfg) (picksIdle cfg) tr s ↔ Reach (server cfg) leastGpuIdle tr s) ∧
      ∀ e, picksIdle cfg s e ↔ leastGpuIdle s e := by
  refine ⟨⟨?_, ?_⟩, fun e => picksIdle_iff (workers_ne_nil (visit_of_reach h))⟩
  · exact Run.mono_of_reach fun _ _ _ reach =>
      (picksIdle_iff (workers_ne_nil (visit_of_reach reach))).mp
  · exact Run.mono_of_reach fun _ _ _ reach =>
      (picksIdle_iff (workers_ne_nil (visit_of_reach reach))).mpr

theorem drains_to_idle_iff_one_job :
    (Reach (server oneWorker) (picksIdle oneWorker) ((runOf oneWorker oneJob).get oneJob_runs).2
        ((runOf oneWorker oneJob).get oneJob_runs).1 ↔
      Reach (server oneWorker) leastGpuIdle ((runOf oneWorker oneJob).get oneJob_runs).2
        ((runOf oneWorker oneJob).get oneJob_runs).1) ∧
      ∀ e, picksIdle oneWorker ((runOf oneWorker oneJob).get oneJob_runs).1 e ↔
        leastGpuIdle ((runOf oneWorker oneJob).get oneJob_runs).1 e :=
  drains_to_idle_iff (reach_of_exec oneJob_runs)

/-- Three workers on the first GPU and one on the second. -/
def threeAndOne : Config where
  settings := { workersPerGpuList := [3, 1] }
  workers_valid := by decide

/-- Four jobs, of which the drain loop has dispatched three. -/
def fourJobs : List Event :=
  [.submitTts sayHello noSpeakers "a" false, .submitTts sayHello noSpeakers "b" false,
    .submitTts sayHello noSpeakers "c" false, .submitTts sayHello noSpeakers "d" false,
    .resumeDrain, .drainPut, .resumeDrain, .drainPut, .resumeDrain, .drainPut]

private theorem fourJobs_run : (runOf threeAndOne fourJobs).isSome = true := by decide +kernel

/-- The fourth job joins the busy worker of the second GPU, with a worker of the first idle. -/
theorem drains_to_busy :
    ¬ ∀ cfg tr s, Reach (server cfg) anyStep tr s → ∀ e, picksIdle cfg s e := by
  intro all
  have reach := reach_of_exec fourJobs_run
  have idle := (picksIdle_iff (workers_ne_nil (visit_of_reach reach))).mp
    (all threeAndOne _ _ reach .resumeDrain)
  have uneven : ((runOf threeAndOne fourJobs).get fourJobs_run).1.takesItem = true ∧
      allBusy ((runOf threeAndOne fourJobs).get fourJobs_run).1.workers = false ∧
      ¬ IdleOnLeastGpu ((runOf threeAndOne fourJobs).get fourJobs_run).1.workers := by
    decide +kernel
  exact uneven.2.2 (idle rfl uneven.1 uneven.2.1)

/-! ### Topologies that never stack -/

private theorem idle_of_not_allBusy {workers : List WorkerHandle} (some_worker : workers ≠ [])
    (free : allBusy workers = false) :
    ∃ p ∈ workers.zipIdx, (p : WorkerHandle × WorkerRef).1.activeRequests = 0 := by
  obtain ⟨w, member, idle⟩ : ∃ w ∈ workers, w.activeRequests = 0 := by
    simpa [allBusy, some_worker, Nat.lt_one_iff] using free
  obtain ⟨i, found⟩ := List.getElem?_of_mem member
  exact ⟨(w, i), List.mk_mem_zipIdx_iff_getElem?.mpr found, idle⟩

private theorem gpu_of_mem_zipIdx (h : Visit cfg P tr s) {p : WorkerHandle × WorkerRef}
    (member : p ∈ s.workers.zipIdx) :
    ((start cfg.cudaOk cfg.settings.workersPerGpuList).map WorkerHandle.gpuIndex)[p.2]? =
      some p.1.gpuIndex := by
  rw [← gpus_fixed h, List.getElem?_map, List.mk_mem_zipIdx_iff_getElem?.mp member]
  rfl

theorem picksIdle_of_one_gpu (one : cfg.settings.workersPerGpuList.length = 1)
    (h : Reach (server cfg) anyStep tr s) (e : Event) : picksIdle cfg s e := by
  have visit := visit_of_reach h
  have some_worker := workers_ne_nil visit
  rw [picksIdle_iff some_worker]
  intro _ _ free
  obtain ⟨count, settings⟩ := List.length_eq_one_iff.mp one
  have first : ∀ p ∈ s.workers.zipIdx, p.1.gpuIndex = 0 := by
    intro p member
    have there := List.mem_of_getElem? (gpu_of_mem_zipIdx visit member)
    rw [settings] at there
    have zero : (∃ slot, slot < count) ∧ 0 = p.1.gpuIndex := by simpa [start, startGpu] using there
    exact zero.2.symm
  apply idleInLeastGroup_of_one_group
  · exact fun a ha b hb => (first a ha).trans (first b hb).symm
  · exact idle_of_not_allBusy some_worker free

theorem picksIdle_of_single_workers (single : ∀ n ∈ cfg.settings.workersPerGpuList, n = 1)
    (h : Reach (server cfg) anyStep tr s) (e : Event) : picksIdle cfg s e := by
  have visit := visit_of_reach h
  have some_worker := workers_ne_nil visit
  rw [picksIdle_iff some_worker]
  intro _ _ free
  have gpus : ∀ p ∈ s.workers.zipIdx, p.1.gpuIndex = p.2 := by
    intro p member
    have there := gpu_of_mem_zipIdx visit member
    rw [gpuIndex_start_single _ single] at there
    obtain ⟨range, same⟩ := List.getElem?_eq_some_iff.mp there
    simpa [eq_comm] using same
  apply idleInLeastGroup_of_singletons
  · intro a ha b hb same idle
    have here : a.2 = b.2 := (gpus a ha).symm.trans (same.trans (gpus b hb))
    have left := List.mk_mem_zipIdx_iff_getElem?.mp ha
    have right := List.mk_mem_zipIdx_iff_getElem?.mp hb
    rw [here, right] at left
    rw [Option.some.inj left]
    exact idle
  · exact idle_of_not_allBusy some_worker free

end XttsServer.Guarantees
