import XttsServer.Runs.Flow

/-!
Where a request is: each id names at most one item that is queued or held by the
drain loop, and at most one task, which serves a request of the right kind.
-/

set_option autoImplicit false
set_option relaxedAutoImplicit false

namespace XttsServer.Model

open XttsServer.Foundations XttsServer.Foundations.Transition

variable {cfg : Config} {P : State → Event → Prop} {s s' s₀ : State} {e : Event}
  {tr o : List Obs}

/-! ### Items -/

theorem request_mem_requests {item : QueuedItem} (member : item ∈ accepted tr) :
    item.request ∈ requests tr := by
  obtain ⟨x, hx, same⟩ := List.mem_filterMap.mp member
  refine List.mem_filterMap.mpr ⟨x, hx, ?_⟩
  cases x <;> simp at same ⊢
  exact congrArg _ same

private theorem accepted_ids_sublist (tr : List Obs) :
    ((accepted tr).map QueuedItem.jobId).Sublist ((requests tr).map Request.jobId) := by
  induction tr with
  | nil => exact List.Sublist.slnil
  | cons x tr ih =>
    cases x with
    | accepted item => simpa [QueuedItem.jobId] using ih
    | dispatched r w =>
      cases r with
      | computeLatents r => simpa using ih.trans (List.sublist_cons_self _ _)
      | _ => simpa using ih
    | _ => simpa using ih

theorem accepted_nodup (h : Visit cfg P tr s) : ((accepted tr).map QueuedItem.jobId).Nodup :=
  (registered h).ids.sublist (accepted_ids_sublist tr)

theorem accepted_unique (h : Visit cfg P tr s) {item item' : QueuedItem}
    (member : item ∈ accepted tr) (member' : item' ∈ accepted tr)
    (same : item.jobId = item'.jobId) :
    item = item' :=
  List.inj_on_of_nodup_map (accepted_nodup h) member member' same

theorem State.items_eq (s : State) :
    s.items = (s.drain.dispatching?.map Prod.fst).toList ++ s.undispatched := by
  unfold State.items State.undispatched
  cases s.drain <;> rfl

theorem mem_drained {p : QueuedItem × WorkerRef} : p ∈ drained tr ↔ .drained p.1 p.2 ∈ tr := by
  rw [drained, List.mem_filterMap]
  constructor
  · rintro ⟨x, member, same⟩
    cases x <;> simp at same
    subst same
    exact member
  · exact fun member => ⟨_, member, rfl⟩

theorem mem_accepted {item : QueuedItem} : item ∈ accepted tr ↔ .accepted item ∈ tr := by
  rw [accepted, List.mem_filterMap]
  constructor
  · rintro ⟨x, member, same⟩
    cases x <;> simp at same
    subst same
    exact member
  · exact fun member => ⟨_, member, rfl⟩

theorem drained_accepted (h : Visit cfg P tr s) {item : QueuedItem} {w : WorkerRef}
    (told : .drained item w ∈ tr) : item ∈ accepted tr := by
  have member : (item, w) ∈ drained tr := mem_drained.mpr told
  rw [flow h]
  exact List.mem_append_left _ (List.mem_map_of_mem member)

theorem dispatching_drained (h : Visit cfg P tr s) {p : QueuedItem × WorkerRef}
    (here : s.drain.dispatching? = some p) : p ∈ drained tr := by
  induction h using visit_induction with
  | start => cases here
  | @change s₀ e s s' tr o before ih meets change =>
    rw [drained, List.filterMap_append]
    cases change with
    | drainDispatches _ _ hand =>
      refine List.mem_append_right _ ?_
      simpa [DrainPc.dispatching?, eq_comm] using here
    | drainPut loop =>
      refine List.mem_append_left _ (ih ?_)
      simpa [DrainPc.dispatching?, loop] using here
    | drainWaits | drainRaises | handedOver => simp [DrainPc.dispatching?] at here
    | collected _ _ _ slot => exact List.mem_append_left _ (ih (slot.dispatching? ▸ here))
    | leave _ _ slot => exact List.mem_append_left _ (ih (slot.dispatching? ▸ here))
    | cloneDone _ _ slot => exact List.mem_append_left _ (ih (slot.dispatching? ▸ here))
    | _ => exact List.mem_append_left _ (ih here)

/-- The items that the drain loop or the queue has are accepted ones, each once. -/
theorem items_nodup (h : Visit cfg P tr s) : (s.items.map QueuedItem.jobId).Nodup := by
  have all := accepted_nodup h
  rw [flow h, List.map_append, List.nodup_append] at all
  obtain ⟨-, rest, apart⟩ := all
  rw [s.items_eq]
  cases here : s.drain.dispatching? with
  | none => simpa using rest
  | some p =>
    have mine : p.1 ∈ (drained tr).map Prod.fst := List.mem_map_of_mem (dispatching_drained h here)
    rw [Option.map_some, Option.toList_some, List.singleton_append, List.map_cons, List.nodup_cons]
    exact ⟨fun again => apart _ (List.mem_map_of_mem mine) _ again rfl, rest⟩

theorem items_accepted (h : Visit cfg P tr s) {item : QueuedItem} (member : item ∈ s.items) :
    item ∈ accepted tr := by
  rw [s.items_eq] at member
  rcases List.mem_append.mp member with mine | waiting
  · obtain ⟨p, here, rfl⟩ : ∃ p, s.drain.dispatching? = some p ∧ p.1 = item := by
      simpa using mine
    exact drained_accepted h (mem_drained.mp (dispatching_drained h here))
  · exact undispatched_accepted h waiting

theorem items_used (h : Visit cfg P tr s) {item : QueuedItem} (member : item ∈ s.items) :
    item.jobId ∈ s.used :=
  (registered h).drawn _ (request_mem_requests (items_accepted h member))

/-! ### Tasks -/

/-- A stream task that does not hold a worker: nothing but a cancellation or the drain loop
moves it. -/
def Task.idle : Task → Bool
  | .stream _ .awaiting => true
  | .stream _ .ended => true
  | _ => false

theorem Task.busy_of_getting {t : Task} {t0 : ℚ} (h : t.getting? = some t0) : t.idle = false := by
  cases t with
  | stream r pc => cases pc <;> simp_all [Task.getting?, Task.idle]
  | _ => rfl

/-- What of a task never changes. -/
inductive Role
  | collector (worker : WorkerRef) (request : Request) (onComplete : OnComplete)
  | stream (request : Request)
  | clone (worker : WorkerRef) (request : Request)

def Task.role : Task → Role
  | .collector w r cb _ _ => .collector w r cb
  | .stream r _ => .stream r
  | .clone w r _ => .clone w r

def Role.request : Role → Request
  | .collector _ r _ => r
  | .stream r => r
  | .clone _ r => r

theorem Task.request_role (t : Task) : t.role.request = t.request := by cases t <;> rfl

@[simp] theorem Task.role_deliver (t : Task) (outcome : GetOutcome) :
    (t.deliver outcome).role = t.role := by
  unfold Task.deliver
  split <;> rfl

theorem Move.busy {now : ℚ} {j : JobId} {t t' : Task} {frame : Option Frame}
    (h : Move cfg now j e t t' frame) : t.idle = false := by
  cases h with
  | timeout blocked => exact Task.busy_of_getting blocked
  | error blocked => exact Task.busy_of_getting blocked
  | _ => rfl

theorem Move.role {now : ℚ} {j : JobId} {t t' : Task} {frame : Option Frame}
    (h : Move cfg now j e t t' frame) : t'.role = t.role := by
  cases h with
  | timeout => exact Task.role_deliver _ _
  | error => exact Task.role_deliver _ _
  | _ => rfl

theorem Leave.busy {j : JobId} {w : WorkerRef} {pc next : StreamPc} {frame : Option Frame}
    {r : Request} (h : Leave j e w pc next frame) : (Task.stream r pc).idle = false := by
  cases h <;> rfl

/-- A task of each kind serves a request of its kind, and a collector has the callback that
was made for its job. -/
inductive Role.Fits (cfg : Config) : Role → Prop
  | collector {w : WorkerRef} {r : SynthesisRequest} {cb : OnComplete}
      (own : cb = .bridge r.jobId ∨ ∃ fmt, cb = .store r.jobId fmt cfg.settings.outputsDir) :
      Fits cfg (.collector w (.synthesis r) cb)
  | stream {r : StreamSynthesisRequest} : Fits cfg (.stream (.stream r))
  | clone {w : WorkerRef} {r : ComputeLatentsRequest} : Fits cfg (.clone w (.computeLatents r))

/-- No task but a stream handler that waits for its future has the item's id. The handler may
also have been cancelled, unless `gone` is false. -/
def Unclaimed (gone : Prop) (tasks : JobId → Option Task) (item : QueuedItem) : Prop :=
  if item.workerFuture.isSome then
    tasks item.jobId = some (.stream item.request .awaiting) ∨
      gone ∧ tasks item.jobId = some (.stream item.request .ended)
  else tasks item.jobId = none

variable {gone : Prop} {tasks : JobId → Option Task} {item : QueuedItem} {j : JobId} {t t' : Task}

private theorem Unclaimed.update (h : Unclaimed gone tasks item) (other : item.jobId ≠ j) :
    Unclaimed gone (Function.update tasks j (some t)) item := by
  unfold Unclaimed at h ⊢
  rwa [Function.update_of_ne other]

theorem Unclaimed.ne_of_busy (h : Unclaimed gone tasks item) (task : tasks j = some t)
    (busy : t.idle = false) : item.jobId ≠ j := by
  rintro rfl
  unfold Unclaimed at h
  rw [task] at h
  split_ifs at h
  · rcases h with h | ⟨-, h⟩ <;> cases h <;> cases busy

private theorem Unclaimed.update_busy (h : Unclaimed gone tasks item) (task : tasks j = some t)
    (busy : t.idle = false) : Unclaimed gone (Function.update tasks j (some t')) item :=
  h.update (h.ne_of_busy task busy)

private theorem Unclaimed.cancel {r : Request} (h : Unclaimed gone tasks item)
    (task : tasks j = some (.stream r .awaiting)) (lost : gone) :
    Unclaimed gone (Function.update tasks j (some (.stream r .ended))) item := by
  by_cases same : item.jobId = j
  · subst same
    unfold Unclaimed at h ⊢
    rw [task] at h
    rw [Function.update_self]
    split_ifs at h ⊢
    rcases h with h | ⟨-, h⟩ <;> cases h
    exact .inr ⟨lost, rfl⟩
  · exact h.update same

/-- The hand-over of a proper item spawns its collector, wakes its stream, or finds the stream
gone. -/
private theorem handOver_cases (proper : item.Proper cfg) (unclaimed : Unclaimed gone s.tasks item)
    (w : WorkerRef) :
    (∃ cb, item.onComplete = some cb ∧ s.tasks item.jobId = none ∧
      (Role.collector w item.request cb).Fits cfg ∧
      (handOver s item w).tasks = Function.update s.tasks item.jobId
        (some (.collector w item.request cb item.enqueuedAt .ready))) ∨
    (s.tasks item.jobId = some (.stream item.request .awaiting) ∧
      (handOver s item w).tasks = Function.update s.tasks item.jobId
        (some (.stream item.request (.assigned w)))) ∨
    (gone ∧ s.tasks item.jobId = some (.stream item.request .ended) ∧
      (handOver s item w).tasks = s.tasks) := by
  cases proper with
  | @job now r cb own =>
    refine .inl ⟨cb, rfl, ?_, .collector own, rfl⟩
    simpa [Unclaimed, jobItem] using unclaimed
  | @stream now r =>
    have alone : s.tasks r.jobId = some (.stream (.stream r) .awaiting) ∨
        gone ∧ s.tasks r.jobId = some (.stream (.stream r) .ended) := unclaimed
    rcases alone with waits | ⟨lost, dead⟩
    · refine .inr (.inl ⟨waits, ?_⟩)
      simp [handOver, streamItem, waits, State.setTask, QueuedItem.jobId, Request.jobId]
    · refine .inr (.inr ⟨lost, dead, ?_⟩)
      simp [handOver, streamItem, dead]

/-- A collector has the worker and the callback of a drained item, a `compute_latents` call
the worker of its own dispatch. -/
def Origin (tr : List Obs) : Role → Prop
  | .collector w r cb => ∃ item, .drained item w ∈ tr ∧ item.request = r ∧ item.onComplete = some cb
  | .stream _ => True
  | .clone w r => .dispatched r w ∈ tr

private theorem Origin.mono {role : Role} (h : Origin tr role) (o : List Obs) :
    Origin (tr ++ o) role := by
  cases role with
  | collector w r cb =>
    obtain ⟨item, member, rest⟩ := h
    exact ⟨item, List.mem_append_left _ member, rest⟩
  | stream r => trivial
  | clone w r => exact List.mem_append_left _ h

/-- The role is one for the request with the id `j`. -/
structure Serves (cfg : Config) (tr : List Obs) (j : JobId) (role : Role) : Prop where
  known : role.request ∈ requests tr
  named : role.request.jobId = j
  fits : role.Fits cfg
  origin : Origin tr role

private theorem Serves.mono {role : Role} (h : Serves cfg tr j role) (o : List Obs) :
    Serves cfg (tr ++ o) j role := by
  refine ⟨?_, h.named, h.fits, h.origin.mono o⟩
  rw [requests, List.filterMap_append]
  exact List.mem_append_left _ h.known

/-- Where the requests are, over a run. -/
structure Placed (cfg : Config) (gone : Prop) (tr : List Obs) (s : State) : Prop where
  serves : ∀ j t, s.tasks j = some t → Serves cfg tr j t.role
  unclaimed : ∀ item ∈ s.items, Unclaimed gone s.tasks item

private theorem Placed.serves_update (h : Placed cfg gone tr s)
    (new : Serves cfg (tr ++ o) j t'.role) :
    ∀ k t, Function.update s.tasks j (some t') k = some t → Serves cfg (tr ++ o) k t.role :=
  forall_of_update (p := fun k t => Serves cfg (tr ++ o) k t.role) new
    fun k t task => (h.serves k t task).mono o

private theorem Placed.update_busy (h : Placed cfg gone tr s) (task : s.tasks j = some t)
    (busy : t.idle = false) (tasks : s'.tasks = Function.update s.tasks j (some t'))
    (items : s'.items = s.items) (role : t'.role = t.role) : Placed cfg gone (tr ++ o) s' := by
  refine ⟨?_, ?_⟩
  · rw [tasks]
    exact h.serves_update (role ▸ (h.serves j t task).mono o)
  · rw [items, tasks]
    exact fun item hi => (h.unclaimed item hi).update_busy task busy

private theorem Placed.same (h : Placed cfg gone tr s) (items : s'.items = s.items)
    (tasks : s'.tasks = s.tasks) : Placed cfg gone (tr ++ o) s' := by
  refine ⟨?_, ?_⟩
  · rw [tasks]
    exact fun k t task => (h.serves k t task).mono o
  · rw [items, tasks]
    exact h.unclaimed

theorem State.items_of_drain (drain : s'.drain.item? = s.drain.item?)
    (queue : s'.queue = s.queue) : s'.items = s.items := by
  rw [State.items, State.items, drain, queue]

theorem used_of_task (h : Visit cfg P tr s) (placed : Placed cfg gone tr s)
    (task : s.tasks j = some t) : j ∈ s.used := by
  obtain ⟨known, named, -, -⟩ := placed.serves j t task
  exact named ▸ (registered h).drawn _ known

theorem tasks_of_fresh (h : Visit cfg P tr s) (placed : Placed cfg gone tr s)
    (fresh : s.canDraw j) :
    s.tasks j = none := by
  by_contra there
  obtain ⟨t, task⟩ := Option.ne_none_iff_exists'.mp there
  exact fresh.2 (used_of_task h placed task)

private theorem Placed.queue_job (placed : Placed cfg gone tr s) (free : s.tasks item.jobId = none)
    (kind : item.workerFuture = none) (items : s'.items = s.items ++ [item])
    (tasks : s'.tasks = s.tasks) : Placed cfg gone (tr ++ o) s' := by
  refine ⟨?_, ?_⟩
  · rw [tasks]
    exact fun k t task => (placed.serves k t task).mono o
  · rw [items, tasks]
    intro i hi
    rcases List.mem_append.mp hi with old | new
    · exact placed.unclaimed i old
    · rw [List.mem_singleton.mp new]
      simpa [Unclaimed, kind] using free

theorem items_of_put {w : WorkerRef} (loop : s.drain = .put item w) :
    s.items = item :: s.queue := by
  simp [State.items, loop, DrainPc.item?]

private theorem queue_apart (h : Visit cfg P tr s) {w : WorkerRef} (loop : s.drain = .put item w) :
    ∀ i ∈ s.queue, i.jobId ≠ item.jobId := by
  have apart := items_nodup h
  rw [items_of_put loop, List.map_cons, List.nodup_cons] at apart
  exact fun i hi same => apart.1 (same ▸ List.mem_map_of_mem hi)

private theorem Placed.handOver (placed : Placed cfg gone tr s) (before : Visit cfg P tr s)
    {w : WorkerRef} (loop : s.drain = .put item w) (items : s'.items = s.queue)
    (tasks : s'.tasks = (handOver s item w).tasks) : Placed cfg gone (tr ++ o) s' := by
  have mine : item ∈ s.items := items_of_put loop ▸ List.mem_cons_self
  have accept := items_accepted before mine
  have rest : ∀ i ∈ s.queue, Unclaimed gone s.tasks i := fun i hi =>
    placed.unclaimed i (items_of_put loop ▸ List.mem_cons_of_mem _ hi)
  have others := queue_apart before loop
  rcases handOver_cases (proper_of_accepted before accept) (placed.unclaimed item mine) w with
    ⟨cb, callback, -, fits, spawned⟩ | ⟨waits, woken⟩ | ⟨-, -, dead⟩
  · -- the collector has the worker that the item was drained to
    have last : .drained item w ∈ tr := by
      have here : (item, w) ∈ drained tr :=
        dispatching_drained before (by simp [loop, DrainPc.dispatching?])
      exact mem_drained.mp here
    have known := request_mem_requests accept
    have new : Serves cfg tr item.jobId (.collector w item.request cb) :=
      ⟨known, rfl, fits, item, last, rfl, callback⟩
    refine ⟨?_, ?_⟩
    · rw [tasks, spawned]
      exact placed.serves_update (new.mono o)
    · rw [items, tasks, spawned]
      exact fun i hi => (rest i hi).update (others i hi)
  · refine ⟨?_, ?_⟩
    · rw [tasks, woken]
      exact placed.serves_update ((placed.serves _ _ waits).mono o)
    · rw [items, tasks, woken]
      exact fun i hi => (rest i hi).update (others i hi)
  · refine ⟨?_, ?_⟩
    · rw [tasks, dead]
      exact fun k t task => (placed.serves k t task).mono o
    · rw [items, tasks, dead]
      exact rest

theorem placed_of (cause : ∀ s j r, P s (.cancelStream j) →
    s.tasks j = some (.stream r .awaiting) → gone) (h : Visit cfg P tr s) :
    Placed cfg gone tr s := by
  induction h using visit_induction with
  | start =>
    refine ⟨fun j t task => ?_, by simp [State.items, State.init, DrainPc.item?]⟩
    simp [State.init] at task
  | @change s₀ e s s' tr o before ih meets change =>
    cases change with
    | @jobQueued s r j fresh =>
      have free : s.tasks (storeItem cfg s r j).jobId = none := tasks_of_fresh before ih fresh
      exact ih.queue_job free rfl (by simp [State.items]) rfl
    | @bridgeQueued s r j fresh =>
      have free : s.tasks (jobItem s.now (r.toRequest j s.nextQueue) (.bridge j)).jobId = none :=
        tasks_of_fresh before ih fresh
      exact ih.queue_job free rfl (by simp [State.items]) rfl
    | streamQueued fresh =>
      refine ⟨ih.serves_update ⟨by simp [streamItem, Task.role, Role.request], rfl, .stream,
        trivial⟩, ?_⟩
      intro item hi
      obtain old | rfl : item ∈ s.items ∨ item = streamItem s.now _ := by
        simpa [State.items, or_assoc] using hi
      · refine (ih.unclaimed item old).update fun same => ?_
        exact fresh.2 (same ▸ items_used before old)
      · simp [Unclaimed, streamItem, QueuedItem.jobId, Request.jobId]
    | cloneStart _ fresh =>
      refine ⟨ih.serves_update ⟨by simp [Task.role, Role.request], rfl, .clone,
        List.mem_append_right _ List.mem_cons_self⟩, ?_⟩
      intro item hi
      refine (ih.unclaimed item hi).update fun same => ?_
      exact fresh.2 (same ▸ items_used before hi)
    | drainWaits hand =>
      exact ih.same (by rw [hand.items]; simp [State.items, DrainPc.item?]) rfl
    | drainRaises hand =>
      exact ih.same (by rw [hand.items]; simp [State.items, DrainPc.item?]) rfl
    | drainDispatches _ _ hand =>
      exact ih.same (by rw [hand.items]; simp [State.items, DrainPc.item?]) rfl
    | drainPut loop => exact ih.same (by simp [State.items, loop, DrainPc.item?]) rfl
    | handedOver loop => exact ih.handOver before loop rfl rfl
    | clonePut task => exact ih.update_busy task rfl rfl rfl rfl
    | move task move => exact ih.update_busy task move.busy rfl rfl move.role
    | getReply task blocked =>
      exact ih.update_busy task (Task.busy_of_getting blocked) rfl rfl (Task.role_deliver _ _)
    | collected _ task _ slot =>
      exact ih.update_busy task rfl rfl (State.items_of_drain slot.item? rfl) rfl
    | leave task left slot =>
      exact ih.update_busy task left.busy rfl (State.items_of_drain slot.item? rfl) rfl
    | cloneDone _ task slot =>
      exact ih.update_busy task rfl rfl (State.items_of_drain slot.item? rfl) rfl
    | @cancelAwaiting j r event task =>
      refine ⟨ih.serves_update ((ih.serves _ _ task).mono _), fun item hi => ?_⟩
      exact (ih.unclaimed item hi).cancel task (cause _ _ _ (event ▸ meets) task)
    | cancelAssigned _ task => exact ih.update_busy task rfl rfl rfl rfl
    | saveOpen task => exact ih.update_busy task rfl rfl rfl rfl
    | saveWrite task => exact ih.update_busy task rfl rfl rfl rfl
    | saved task => exact ih.update_busy task rfl rfl rfl rfl
    | _ => exact ih.same rfl rfl

theorem placed (h : Visit cfg P tr s) : Placed cfg True tr s :=
  placed_of (fun _ _ _ _ _ => trivial) h

theorem request_known (h : Visit cfg P tr s) {t : Task} (task : s.tasks j = some t) :
    t.request ∈ requests tr := t.request_role ▸ ((placed h).serves j t task).known

theorem request_named (h : Visit cfg P tr s) {t : Task} (task : s.tasks j = some t) :
    t.request.jobId = j := t.request_role ▸ ((placed h).serves j t task).named

theorem proper_of_put (h : Visit cfg P tr s) {w : WorkerRef} (loop : s.drain = .put item w) :
    item.Proper cfg ∧ Unclaimed True s.tasks item := by
  have member : item ∈ s.items := items_of_put loop ▸ List.mem_cons_self
  exact ⟨proper_of_accepted h (items_accepted h member), (placed h).unclaimed item member⟩

theorem handedOver_cases (h : Visit cfg P tr s) {w : WorkerRef} (loop : s.drain = .put item w) :
    (∃ cb, item.onComplete = some cb ∧ s.tasks item.jobId = none ∧
      (handOver s item w).tasks = Function.update s.tasks item.jobId
        (some (.collector w item.request cb item.enqueuedAt .ready))) ∨
    (s.tasks item.jobId = some (.stream item.request .awaiting) ∧
      (handOver s item w).tasks = Function.update s.tasks item.jobId
        (some (.stream item.request (.assigned w)))) ∨
    (s.tasks item.jobId = some (.stream item.request .ended) ∧
      (handOver s item w).tasks = s.tasks) := by
  obtain ⟨proper, unclaimed⟩ := proper_of_put h loop
  rcases handOver_cases proper unclaimed w with ⟨cb, callback, free, -, tasks⟩ | waits | ⟨-, dead⟩
  · exact .inl ⟨cb, callback, free, tasks⟩
  · exact .inr (.inl waits)
  · exact .inr (.inr dead)

end XttsServer.Model
