import XttsServer.Runs.Calls
import XttsServer.Runs.Delivery

/-!
Nothing that was accepted is lost on its way: each request is in the queue or has
a task, each task that waits for the worker's reply is still going to get one,
and no task gets to that point before its request was put.
-/

set_option autoImplicit false
set_option relaxedAutoImplicit false

namespace XttsServer.Model

open XttsServer.Foundations XttsServer.Foundations.Transition

variable {cfg : Config} {P : State → Event → Prop} {s s' s₀ : State} {e : Event}
  {tr o : List Obs}

/-! ### Where a request is -/

/-- The request is in the queue, in the drain loop, or has a task. -/
def Located (s : State) (r : Request) : Prop :=
  (∃ item ∈ s.items, item.request = r) ∨ ∃ t, s.tasks r.jobId = some t ∧ t.request = r

private theorem Located.task {r : Request} {j : JobId} {t t' : Task} (h : Located s r)
    (task : s.tasks j = some t) (tasks : s'.tasks = Function.update s.tasks j (some t'))
    (items : s'.items = s.items) (role : t'.role = t.role) : Located s' r := by
  have same : t'.request = t.request := by rw [← Task.request_role, role, Task.request_role]
  rcases h with ⟨item, member, rfl⟩ | ⟨u, there, rfl⟩
  · exact .inl ⟨item, items ▸ member, rfl⟩
  · right
    rw [tasks]
    by_cases here : u.request.jobId = j
    · rw [here, Function.update_self]
      rw [here, task] at there
      exact ⟨t', rfl, same.trans (congrArg Task.request (Option.some.inj there))⟩
    · rw [Function.update_of_ne here]
      exact ⟨u, there, rfl⟩

private theorem Located.mono {r : Request} (h : Located s r) (items : s.items ⊆ s'.items)
    (tasks : s'.tasks = s.tasks) : Located s' r := by
  rcases h with ⟨item, member, rfl⟩ | there
  · exact .inl ⟨item, items member, rfl⟩
  · exact .inr (tasks ▸ there)

private theorem Located.start {r : Request} {j : JobId} {t : Task} (h : Located s r)
    (free : s.tasks j = none) (tasks : s'.tasks = Function.update s.tasks j (some t))
    (items : s.items ⊆ s'.items) : Located s' r := by
  rcases h with ⟨item, member, rfl⟩ | ⟨u, there, same⟩
  · exact .inl ⟨item, items member, rfl⟩
  · refine .inr ⟨u, ?_, same⟩
    rw [tasks, Function.update_of_ne]
    · exact there
    · rintro rfl
      rw [free] at there
      cases there

private theorem Change.located (before : Visit cfg P tr s) (change : Change cfg s₀ e s s' o)
    {r : Request} (h : Located s r) : Located s' r := by
  cases change with
  | jobQueued | bridgeQueued => exact h.mono (by simp [State.items]) rfl
  | streamQueued fresh =>
    exact h.start (tasks_of_fresh before (placed before) fresh) rfl (by simp [State.items])
  | cloneStart _ fresh =>
    exact h.start (tasks_of_fresh before (placed before) fresh) rfl (by simp [State.items])
  | drainWaits hand | drainRaises hand | drainDispatches _ _ hand =>
    exact h.mono (by rw [hand.items]; simp [State.items, DrainPc.item?]) rfl
  | drainPut loop => exact h.mono (by simp [State.items, loop, DrainPc.item?]) rfl
  | @handedOver item w loop =>
    -- The item that leaves the loop is the request of its task.
    have moved : ∀ {t : Task}, (handOver s item w).tasks =
        Function.update s.tasks item.jobId (some t) → t.request = item.request →
        (∀ u, s.tasks item.jobId = some u → u.request = item.request) →
        Located { s with drain := .getting, tasks := (handOver s item w).tasks } r := by
      intro t tasks same was
      by_cases here : r.jobId = item.jobId
      · refine .inr ⟨t, by rw [tasks, here, Function.update_self], ?_⟩
        rcases h with ⟨item', member, rfl⟩ | ⟨u, there, rfl⟩
        · have mine : item ∈ s.items := by simp [State.items, loop, DrainPc.item?]
          exact same.trans (congrArg QueuedItem.request
            (List.inj_on_of_nodup_map (items_nodup before) member mine here)).symm
        · rw [here] at there
          exact same.trans (was u there).symm
      · rcases h with ⟨item', member, rfl⟩ | ⟨u, there, rfl⟩
        · rcases List.mem_append.mp member with inside | queued
          · have same : item' = item := by simpa [loop, DrainPc.item?] using inside
            exact absurd (same ▸ rfl) here
          · exact .inl ⟨item', List.mem_append_right _ queued, rfl⟩
        · exact .inr ⟨u, by rw [tasks, Function.update_of_ne here]; exact there, rfl⟩
    rcases handedOver_cases before loop with ⟨cb, -, free, tasks⟩ | ⟨waits, tasks⟩ | ⟨dead, tasks⟩
    · exact moved tasks rfl fun u there => by simp [free] at there
    · exact moved tasks rfl fun u there => by
        rw [waits] at there
        exact Option.some.inj there ▸ rfl
    · have stays :
          Function.update s.tasks item.jobId (some (.stream item.request .ended)) = s.tasks :=
        by rw [← dead, Function.update_eq_self]
      exact moved (tasks.trans stays.symm) rfl fun u there => by
        rw [dead] at there
        exact Option.some.inj there ▸ rfl
  | move task move => exact h.task task rfl rfl move.role
  | getReply task => exact h.task task rfl rfl (Task.role_deliver _ _)
  | collected _ task _ slot => exact h.task task rfl (State.items_of_drain slot.item? rfl) rfl
  | leave task _ slot => exact h.task task rfl (State.items_of_drain slot.item? rfl) rfl
  | cloneDone _ task slot => exact h.task task rfl (State.items_of_drain slot.item? rfl) rfl
  | clonePut task | cancelAwaiting _ task | cancelAssigned _ task | saveOpen task | saveWrite task
  | saved task => exact h.task task rfl rfl rfl
  | _ => exact h.mono (List.Subset.refl _) rfl

/-- No accepted request and no latent computation is ever lost. -/
theorem located (h : Visit cfg P tr s) {r : Request} (known : r ∈ requests tr) : Located s r := by
  induction h using visit_induction with
  | start => cases known
  | @change s₀ e s s' tr o before ih meets change =>
    rw [requests, List.filterMap_append] at known
    rcases List.mem_append.mp known with old | new
    · exact change.located before (ih old)
    · cases change with
      | jobQueued | bridgeQueued | streamQueued =>
        obtain rfl : r = _ := by simpa using new
        exact .inl ⟨_, by simp [State.items], rfl⟩
      | cloneStart =>
        obtain rfl : r = _ := by simpa using new
        exact .inr ⟨_, by simp [Request.jobId]; rfl, rfl⟩
      | jobTurnedAway _ _ told => rcases told with rfl | rfl <;> simp at new
      | @answered _ a answer => cases a <;> simp [Obs.isAnswer] at answer new
      | @drainDispatches s item rest w _ _ hand =>
        have kind : item.Proper cfg :=
          undispatched_proper before (hand.undispatched ▸ List.mem_cons_self)
        cases kind <;> simp [jobItem, streamItem] at new
      | _ => simp [marks_eq_map, Function.comp_def] at new

/-! ### Streams in the queue -/

private theorem Task.deliver_ne_awaiting {t : Task} {t0 : ℚ} (blocked : t.getting? = some t0)
    (outcome : GetOutcome) (r : Request) : t.deliver outcome ≠ .stream r .awaiting := by
  cases t with
  | collector w r cb at' pc => cases pc <;> simp_all [Task.getting?, Task.deliver]
  | stream r pc => cases pc <;> simp_all [Task.getting?, Task.deliver]
  | clone w r pc => cases pc <;> simp_all [Task.getting?, Task.deliver]

private theorem awaiting_update {j k : JobId} {t : Task} {r : Request}
    (task : Function.update s.tasks k (some t) j = some (.stream r .awaiting))
    (other : t ≠ .stream r .awaiting) : s.tasks j = some (.stream r .awaiting) := by
  rcases some_of_update task with ⟨-, new⟩ | ⟨-, old⟩
  · exact absurd new.symm other
  · exact old

/-- A stream handler that waits for its worker has its item in the queue. -/
theorem awaiting_queued (h : Visit cfg P tr s) {j : JobId} {r : Request}
    (task : s.tasks j = some (.stream r .awaiting)) : ∃ item ∈ s.items, item.request = r := by
  induction h using visit_induction with
  | start => simp [State.init] at task
  | @change s₀ e s s' tr o before ih meets change =>
    have queued : s.items ⊆ s'.items → s.tasks j = some (.stream r .awaiting) →
        ∃ item ∈ s'.items, item.request = r := fun more was =>
      (ih was).imp fun _ found => ⟨more found.1, found.2⟩
    have same : s'.items = s.items → s.tasks j = some (.stream r .awaiting) →
        ∃ item ∈ s'.items, item.request = r := fun items => queued (items ▸ List.Subset.refl _)
    cases change with
    | jobQueued | bridgeQueued => exact queued (by simp [State.items]) task
    | @streamQueued _ request =>
      rcases some_of_update task with ⟨-, new⟩ | ⟨-, old⟩
      · cases new
        exact ⟨streamItem s.now request, by simp [State.items], rfl⟩
      · exact queued (by simp [State.items]) old
    | drainWaits hand | drainRaises hand | drainDispatches _ _ hand =>
      exact same (by rw [hand.items]; simp [State.items, DrainPc.item?]) task
    | drainPut loop => exact same (by simp [State.items, loop, DrainPc.item?]) task
    | @handedOver item w loop =>
      dsimp only at task
      have passed : ∀ {t : Task}, (handOver s₀ item w).tasks =
          Function.update s₀.tasks item.jobId (some t) → t ≠ .stream r .awaiting →
          ∃ item' ∈ s₀.queue, item'.request = r := by
        intro t tasks other
        rw [tasks] at task
        rcases some_of_update task with ⟨-, new⟩ | ⟨here, task⟩
        · exact absurd new.symm other
        · obtain ⟨item', member, rfl⟩ := ih task
          have named := ((placed before).serves j _ task).named
          rcases List.mem_append.mp member with inside | waits
          · have same : item' = item := by simpa [loop, DrainPc.item?] using inside
            subst same
            exact absurd named.symm here
          · exact ⟨item', waits, rfl⟩
      have result : ∃ item' ∈ s₀.queue, item'.request = r := by
        rcases handedOver_cases before loop with ⟨cb, -, -, tasks⟩ | ⟨-, tasks⟩ | ⟨dead, tasks⟩
        · exact passed tasks (by simp)
        · exact passed tasks (by simp)
        · exact passed (tasks.trans (by rw [← dead, Function.update_eq_self])) (by simp)
      exact result.imp fun _ found => ⟨List.mem_append_right _ found.1, found.2⟩
    | cloneStart | clonePut | cancelAwaiting | cancelAssigned | saveOpen | saveWrite | saved =>
      exact same rfl (awaiting_update task (by simp))
    | move _ move =>
      refine same rfl (awaiting_update task ?_)
      cases move with
      | timeout blocked | error blocked => exact Task.deliver_ne_awaiting blocked _ r
      | _ => simp
    | getReply _ blocked =>
      exact same rfl (awaiting_update task (Task.deliver_ne_awaiting blocked _ r))
    | collected _ _ _ slot | cloneDone _ _ slot =>
      exact same (State.items_of_drain slot.item? rfl) (awaiting_update task (by simp))
    | leave _ left slot =>
      refine same (State.items_of_drain slot.item? rfl) (awaiting_update task ?_)
      cases left with
      | sendFails after | closeFails after => rcases after with rfl | rfl <;> simp
      | _ => simp
    | _ => exact same rfl task

/-! ### Replies to come -/

/-- The worker has yet to answer the request, or its last answer has not been fetched. -/
def Pending (s : State) (r : Request) : Prop :=
  (∃ w, r ∈ (s.processes w).backlog) ∨ ∃ m ∈ s.resultQueues r.resultQueue, m.terminal = true

def Task.expects : Task → Bool
  | .collector _ _ _ _ .ready => true
  | .collector _ _ _ _ (.getting _) => true
  | .stream _ (.assigned _) => true
  | .stream _ (.getting _ _) => true
  | .stream _ (.got _ (.item (.chunk _))) => true
  | .stream _ (.sending _ _) => true
  | .clone _ _ .put => true
  | .clone _ _ (.getting _) => true
  | _ => false

private theorem Task.expects_collector {w : WorkerRef} {r : Request} {cb : OnComplete} {t : ℚ}
    {pc : CollectPc} (settled : pc.holds = false) :
    (Task.collector w r cb t pc).expects = false := by
  cases pc with
  | ready | getting | got => cases settled
  | _ => rfl

private theorem Change.pending (change : Change cfg s₀ e s s' o) {r : Request} (h : Pending s r)
    (apart : ∀ j t, e = .getReply j → s.tasks j = some t → t.request.resultQueue ≠ r.resultQueue) :
    Pending s' r := by
  have backlogs : ∀ {processes : WorkerRef → Process} {w : WorkerRef} {p : Process},
      (r ∈ (s.processes w).backlog → r ∈ p.backlog) →
      processes = Function.update s.processes w p → (∃ w, r ∈ (s.processes w).backlog) →
      ∃ w, r ∈ (processes w).backlog := by
    rintro _ w p kept rfl ⟨v, member⟩
    refine ⟨v, ?_⟩
    by_cases here : v = w
    · subst here
      rw [Function.update_self]
      exact kept member
    · rwa [Function.update_of_ne here]
  have messages : ∀ {queues : QueueId → List Message} {q : QueueId} {new : Message},
      queues = Function.update s.resultQueues q (s.resultQueues q ++ [new]) →
      (∃ m ∈ s.resultQueues r.resultQueue, m.terminal = true) →
      ∃ m ∈ queues r.resultQueue, m.terminal = true := by
    rintro _ q new rfl ⟨m, member, last⟩
    refine ⟨m, ?_, last⟩
    by_cases here : r.resultQueue = q
    · simp only [here, Function.update_self] at member ⊢
      exact List.mem_append_left _ member
    · rwa [Function.update_of_ne here]
  cases change with
  | drainPut | clonePut =>
    refine h.imp_left (backlogs (fun member => ?_) rfl)
    rw [Process.backlog, ← List.append_assoc]
    exact List.mem_append_left _ member
  | workerTake idle => exact h.imp_left (backlogs (by simp [idle, Process.backlog]) rfl)
  | workerChunk => exact h.imp_right (messages rfl)
  | @workerReply w r' rest outcome _ busy =>
    by_cases answered : r = r'
    · subst answered
      refine .inr ⟨closingMessage r outcome, by simp, ?_⟩
      cases r <;> cases outcome <;> rfl
    · refine h.imp (backlogs (fun member => ?_) rfl) (messages rfl)
      rw [busy] at member
      simpa [Process.backlog, answered] using member
  | @getReply j t t0 m rest task blocked head event =>
    refine h.imp_right ?_
    rintro ⟨m', member, last⟩
    refine ⟨m', ?_, last⟩
    dsimp only
    rwa [Function.update_of_ne (apart j t event task).symm]
  | _ => exact h

private theorem Task.expects_deliver {t : Task} {t0 : ℚ} (blocked : t.getting? = some t0)
    {outcome : GetOutcome} (expects : (t.deliver outcome).expects = true) :
    t.expects = true ∧ ∃ c, outcome = .item (.chunk c) := by
  cases t with
  | collector w r cb at' pc => cases pc <;> simp_all [Task.getting?, Task.deliver, Task.expects]
  | stream r pc =>
    cases pc <;> simp only [Task.getting?] at blocked <;> try contradiction
    cases outcome with
    | item m => cases m <;> simp_all [Task.deliver, Task.expects]
    | _ => cases expects
  | clone w r pc => cases pc <;> simp_all [Task.getting?, Task.deliver, Task.expects]

private theorem Task.request_deliver (t : Task) (outcome : GetOutcome) :
    (t.deliver outcome).request = t.request := by
  rw [← Task.request_role, Task.role_deliver, Task.request_role]

theorem stream_chunk (h : Visit cfg P tr s) {j : JobId} {r : Request} {w : WorkerRef}
    {m : Message} (task : s.tasks j = some (.stream r (.got w (.item m))))
    (other : ∀ x, m ≠ .streamEnd x) : ∃ c, m = .chunk c := by
  obtain ⟨v, told⟩ := tasks_heard h j _ task
  have answers := ((handled h).replied v r m told).2
  have fits := ((placed h).serves j _ task).fits
  cases fits
  cases m with
  | chunk c => exact ⟨c, rfl⟩
  | streamEnd x => exact absurd rfl (other x)
  | result | latents => cases answers

private theorem Move.expects (before : Visit cfg P tr s) {j : JobId} {t t' : Task}
    {frame : Option Frame}
    (task : s.tasks j = some t) (h : Move cfg s.now j e t t' frame) (expects : t'.expects = true) :
    t.expects = true ∧ t'.request = t.request := by
  cases h with
  | timeout blocked | error blocked =>
    obtain ⟨-, c, none⟩ := Task.expects_deliver blocked expects
    cases none
  | streamOther other =>
    obtain ⟨c, rfl⟩ := stream_chunk before task other
    exact ⟨rfl, rfl⟩
  | collectorStart | streamAssigned | streamChunk | streamSent | cloneReady => exact ⟨rfl, rfl⟩
  | _ => cases expects

private theorem queue_ne (h : Visit cfg P tr s) {r r' : Request} (known : r ∈ requests tr)
    (known' : r' ∈ requests tr) (apart : r.jobId ≠ r'.jobId) : r.resultQueue ≠ r'.resultQueue :=
  fun same => apart (congrArg Request.jobId (request_of_queue h known known' same))

/-- Who has seen its request put and still wants its reply will find one. -/
structure Expecting (s : State) : Prop where
  drain : ∀ item w, s.drain = .put item w → Pending s item.request
  task : ∀ j t, s.tasks j = some t → t.expects = true → Pending s t.request

private theorem Change.reply (change : Change cfg s₀ e s s' o) {j : JobId}
    (event : e = .getReply j) :
    ∃ t t0 m rest, s.tasks j = some t ∧ t.getting? = some t0 ∧
      s.resultQueues t.request.resultQueue = m :: rest ∧
      s' = { s with
        tasks := Function.update s.tasks j (some (t.deliver (.item m)))
        resultQueues := Function.update s.resultQueues t.request.resultQueue rest } := by
  cases change with
  | @getReply k t t0 m rest task blocked head event' =>
    obtain rfl : k = j := by
      rw [event'] at event
      exact Event.getReply.inj event
    exact ⟨t, t0, m, rest, task, blocked, head, rfl⟩
  | move _ move => cases move <;> simp_all
  | leave _ left => cases left <;> cases event
  | _ => simp_all [Event.submits, Event.makeQueueRaises]

private theorem Change.expecting (before : Visit cfg P tr s) (change : Change cfg s₀ e s s' o)
    (h : Expecting s) : Expecting s' := by
  have known : ∀ {j t}, s.tasks j = some t → t.request ∈ requests tr ∧ t.request.jobId = j :=
    fun {j t} task => by
      obtain ⟨known, named, -, -⟩ := (placed before).serves j t task
      rw [Task.request_role] at known named
      exact ⟨known, named⟩
  by_cases reply : ∃ j, e = .getReply j
  · obtain ⟨j, event⟩ := reply
    obtain ⟨t, t0, m, rest, task, blocked, head, rfl⟩ := change.reply event
    have kept : ∀ {r}, r ∈ requests tr → r.jobId ≠ j → Pending s r →
        Pending { s with
          tasks := Function.update s.tasks j (some (t.deliver (.item m)))
          resultQueues := Function.update s.resultQueues t.request.resultQueue rest } r := by
      intro r there apart pending
      refine change.pending pending fun k u event' task' => ?_
      obtain rfl : j = k := Event.getReply.inj (event.symm.trans event')
      exact queue_ne before (known task').1 there ((known task').2.trans_ne apart.symm)
    refine ⟨fun item w loop => ?_, fun k u task' expects => ?_⟩
    · have mine : item ∈ s.items := by
        rw [State.items, show s.drain = .put item w from loop]
        exact List.mem_cons_self
      have apart := ((placed before).unclaimed item mine).ne_of_busy task
        (Task.busy_of_getting blocked)
      exact kept (request_mem_requests (items_accepted before mine)) apart (h.drain item w loop)
    · rcases some_of_update task' with ⟨rfl, rfl⟩ | ⟨here, old⟩
      · obtain ⟨waits, c, chunk⟩ := Task.expects_deliver blocked expects
        rw [Task.request_deliver]
        refine (h.task k t task waits).imp_right ?_
        rintro ⟨m', member, last⟩
        refine ⟨m', ?_, last⟩
        rw [head] at member
        obtain rfl : m = .chunk c := by simpa using chunk
        rcases List.mem_cons.mp member with rfl | member
        · cases last
        · simpa using member
      · exact kept (known old).1 ((known old).2.trans_ne here) (h.task k u old expects)
  · have kept : ∀ {r}, Pending s r → Pending s' r := fun pending =>
      change.pending pending fun j _ event _ => absurd ⟨j, event⟩ reply
    have same : s'.drain = s.drain → ∀ item w, s'.drain = .put item w → Pending s' item.request :=
      fun drain item w loop => kept (h.drain item w (drain ▸ loop))
    have update : ∀ {j t'}, s'.tasks = Function.update s.tasks j (some t') →
        (t'.expects = true → Pending s' t'.request) →
        ∀ k u, s'.tasks k = some u → u.expects = true → Pending s' u.request := by
      intro j t' tasks source k u task' expects
      rw [tasks] at task'
      rcases some_of_update task' with ⟨-, rfl⟩ | ⟨-, old⟩
      · exact source expects
      · exact kept (h.task k u old expects)
    have tasks_same : s'.tasks = s.tasks →
        ∀ k u, s'.tasks k = some u → u.expects = true → Pending s' u.request :=
      fun tasks k u task' expects => kept (h.task k u (tasks ▸ task') expects)
    cases change with
    | getReply _ _ _ event => exact absurd ⟨_, event⟩ reply
    | streamQueued | cloneStart => exact ⟨same rfl, update rfl fun expects => by cases expects⟩
    | drainWaits | drainRaises | drainDispatches =>
      exact ⟨fun item w loop => (by cases loop), tasks_same rfl⟩
    | @drainPut item w loop =>
      refine ⟨fun item' w' loop' => .inl ⟨w, ?_⟩, tasks_same rfl⟩
      cases loop'
      simp [Process.backlog]
    | @handedOver item w loop =>
      refine ⟨fun item w loop => (by cases loop), ?_⟩
      rcases handedOver_cases before loop with ⟨cb, -, -, tasks⟩ | ⟨-, tasks⟩ | ⟨-, tasks⟩
      · exact update tasks fun _ => kept (h.drain item w loop)
      · exact update tasks fun _ => kept (h.drain item w loop)
      · exact tasks_same tasks
    | @clonePut j w r task =>
      exact ⟨same rfl, update rfl fun _ => .inl ⟨w, by simp [Process.backlog, Task.request]⟩⟩
    | @move j t t' frame task move =>
      refine ⟨same rfl, update rfl fun expects => ?_⟩
      obtain ⟨waits, request⟩ := move.expects before task expects
      exact request ▸ kept (h.task j t task waits)
    | @collected j w r cb t t0 outcome result workers drain i next _ _ _ _ _ _ slot call =>
      refine ⟨fun item v loop => kept (h.drain item v (slot.drain_of (by simp) loop)),
        update rfl fun expects => ?_⟩
      rw [Task.expects_collector (onComplete_holds call)] at expects
      cases expects
    | leave _ left slot =>
      refine ⟨fun item v loop => kept (h.drain item v (slot.drain_of (by simp) loop)),
        update rfl fun expects => ?_⟩
      cases left with
      | sendFails after | closeFails after => rcases after with rfl | rfl <;> cases expects
      | _ => cases expects
    | cloneDone _ _ slot =>
      exact ⟨fun item v loop => kept (h.drain item v (slot.drain_of (by simp) loop)),
        update rfl fun expects => by cases expects⟩
    | cancelAwaiting | cancelAssigned | saveOpen | saveWrite | saved =>
      exact ⟨same rfl, update rfl fun expects => by cases expects⟩
    | _ => exact ⟨same rfl, tasks_same rfl⟩

theorem expecting (h : Visit cfg P tr s) : Expecting s := by
  induction h using visit_induction with
  | start => exact ⟨fun item w loop => (by cases loop), by simp [State.init]⟩
  | change before ih meets change => exact change.expecting before ih

/-! ### Requests that have been put -/

def Task.wasPut : Task → Bool
  | .collector _ _ _ _ _ => true
  | .stream _ pc => pc.holds.isSome
  | .clone _ _ .putting => false
  | .clone _ _ _ => true

/-- The drain loop or a task goes on from the `put` of the request. -/
def State.wasPut (s : State) (j : JobId) : Prop :=
  (∃ item w, s.drain = .put item w ∧ item.jobId = j) ∨ ∃ t, s.tasks j = some t ∧ t.wasPut = true

theorem Task.wasPut_of_getting {t : Task} {t0 : ℚ} (blocked : t.getting? = some t0) :
    t.wasPut = true := by
  cases t with
  | collector => rfl
  | stream r pc => cases pc <;> simp_all [Task.getting?, Task.wasPut, StreamPc.holds]
  | clone w r pc => cases pc <;> simp_all [Task.getting?, Task.wasPut]

private theorem Move.wasPut {now : ℚ} {j : JobId} {t t' : Task} {frame : Option Frame}
    (h : Move cfg now j e t t' frame) (put : t'.wasPut = true) : t.wasPut = true := by
  cases h with
  | timeout blocked | error blocked => exact Task.wasPut_of_getting blocked
  | streamReported => cases put
  | _ => rfl

private theorem Change.wasPut (before : Visit cfg P tr s) (change : Change cfg s₀ e s s' o)
    {j : JobId} (put : s'.wasPut j) : s.wasPut j ∨ e.threadOf s₀ = some ⟨.put, j⟩ := by
  have same : (∀ item w, s'.drain = .put item w → s.drain = .put item w) → s'.tasks = s.tasks →
      s.wasPut j ∨ e.threadOf s₀ = some ⟨.put, j⟩ := fun drain tasks => by
    rcases put with ⟨item, w, loop, named⟩ | ⟨t, task, fine⟩
    · exact .inl (.inl ⟨item, w, drain item w loop, named⟩)
    · exact .inl (.inr ⟨t, tasks ▸ task, fine⟩)
  have update : ∀ {k t'}, (∀ item w, s'.drain = .put item w → s.drain = .put item w) →
      s'.tasks = Function.update s.tasks k (some t') →
      (t'.wasPut = true → s.wasPut k ∨ e.threadOf s₀ = some ⟨.put, k⟩) →
      s.wasPut j ∨ e.threadOf s₀ = some ⟨.put, j⟩ := fun {k t'} drain tasks source => by
    rcases put with ⟨item, w, loop, named⟩ | ⟨t, task, fine⟩
    · exact .inl (.inl ⟨item, w, drain item w loop, named⟩)
    · rw [tasks] at task
      rcases some_of_update task with ⟨rfl, rfl⟩ | ⟨-, old⟩
      · exact source fine
      · exact .inl (.inr ⟨t, old, fine⟩)
  cases change with
  | streamQueued | cloneStart => exact update (fun _ _ => id) rfl fun put => by cases put
  | drainWaits | drainRaises | drainDispatches => exact same (fun _ _ loop => by cases loop) rfl
  | @drainPut item w loop event =>
    rcases put with ⟨item', w', loop', rfl⟩ | there
    · cases loop'
      exact .inr (by rw [event, Event.threadOf, loop]; rfl)
    · exact .inl (.inr there)
  | @handedOver item w loop =>
    rcases handedOver_cases before loop with ⟨cb, -, -, tasks⟩ | ⟨-, tasks⟩ | ⟨-, tasks⟩
    · exact update (fun _ _ loop => by cases loop) tasks fun _ => .inl (.inl ⟨item, w, loop, rfl⟩)
    · exact update (fun _ _ loop => by cases loop) tasks fun _ => .inl (.inl ⟨item, w, loop, rfl⟩)
    · exact same (fun _ _ loop => by cases loop) tasks
  | clonePut task event => exact update (fun _ _ => id) rfl fun _ => .inr (by rw [event]; rfl)
  | move task move =>
    exact update (fun _ _ => id) rfl fun put => .inl (.inr ⟨_, task, move.wasPut put⟩)
  | getReply task blocked =>
    exact update (fun _ _ => id) rfl fun _ => .inl (.inr ⟨_, task, Task.wasPut_of_getting blocked⟩)
  | collected _ task _ slot =>
    exact update (fun _ _ => slot.drain_of (by simp)) rfl fun _ => .inl (.inr ⟨_, task, rfl⟩)
  | leave _ left slot =>
    refine update (fun _ _ => slot.drain_of (by simp)) rfl fun put => ?_
    rw [Task.wasPut, left.holds.2] at put
    cases put
  | cloneDone _ task slot =>
    exact update (fun _ _ => slot.drain_of (by simp)) rfl fun _ => .inl (.inr ⟨_, task, rfl⟩)
  | cancelAwaiting | cancelAssigned => exact update (fun _ _ => id) rfl fun put => by cases put
  | saveOpen task | saveWrite task | saved task =>
    exact update (fun _ _ => id) rfl fun _ => .inl (.inr ⟨_, task, rfl⟩)
  | _ => exact same (fun _ _ => id) rfl

theorem step_wasPut (h : Reach (server cfg) P tr s) (meets : P s e)
    (taken : step cfg s e = some (s', o)) {j : JobId} (put : s'.wasPut j) :
    s.wasPut j ∨ e.threadOf s = some ⟨.put, j⟩ := by
  refine (visit_of_reach h).keeps_along
    (I := fun a => a.wasPut j → s.wasPut j ∨ e.threadOf s = some ⟨.put, j⟩) (step_changes taken)
    (fun _ _ _ change => ⟨s, e, meets, change⟩) .inl (fun there change ih put => ?_) put
  exact (change.wasPut there put).elim ih .inr

/-! ### Results of _run_synthesis -/

/-- The job whose future the task is going to resolve. -/
def Task.bridge? : Task → Option JobId
  | .collector _ _ (.bridge j) _ pc => if pc.holds then some j else none
  | _ => none

/-- The future of the `_run_synthesis` call is resolved, or somebody is going to do it. -/
def State.bridges (s : State) (j : JobId) : Prop :=
  (∃ item ∈ s.items, item.onComplete = some (.bridge j)) ∨
    (∃ k t, s.tasks k = some t ∧ t.bridge? = some j) ∨ (s.resultFutures j).isSome = true

private theorem Task.bridge?_deliver {t : Task} {t0 : ℚ} (blocked : t.getting? = some t0)
    (outcome : GetOutcome) : (t.deliver outcome).bridge? = t.bridge? := by
  cases t with
  | collector w r cb at' pc =>
    cases pc <;> simp_all [Task.getting?, Task.deliver]
    cases cb <;> rfl
  | stream r pc => cases pc <;> simp_all [Task.getting?, Task.deliver, Task.bridge?]
  | clone w r pc => cases pc <;> simp_all [Task.getting?, Task.deliver, Task.bridge?]

private theorem Move.bridge? {now : ℚ} {j : JobId} {t t' : Task} {frame : Option Frame}
    (h : Move cfg now j e t t' frame) : t'.bridge? = t.bridge? := by
  cases h with
  | timeout blocked | error blocked => exact Task.bridge?_deliver blocked _
  | @collectorStart w r cb | @collectorRaised w r cb | @saveRaise w r cb => cases cb <;> rfl
  | _ => rfl

private theorem handedOver_callback (h : Visit cfg P tr s) {item : QueuedItem} {w : WorkerRef}
    (loop : s.drain = .put item w) {cb : OnComplete} (callback : item.onComplete = some cb) :
    (handOver s item w).tasks = Function.update s.tasks item.jobId
      (some (.collector w item.request cb item.enqueuedAt .ready)) := by
  obtain ⟨proper, unclaimed⟩ := proper_of_put h loop
  have free : s.tasks item.jobId = none := by
    cases proper with
    | job => exact unclaimed
    | stream => cases callback
  rcases handedOver_cases h loop with ⟨cb', callback', -, tasks⟩ | ⟨waits, -⟩ | ⟨dead, -⟩
  · rw [tasks, Option.some.inj (callback'.symm.trans callback)]
  · simp [free] at waits
  · simp [free] at dead

/-- A callback resolves its own future, and no future is ever reset. -/
private theorem onComplete_futures {cb : OnComplete} {w : WorkerRef} {result : SynthesisResult}
    {ms : ℚ} {effect : Effect} {next : CollectPc} (h : onComplete s cb w result ms = (effect, next))
    (j : JobId) : (effect.1.resultFutures j).isSome = true ↔
      (s.resultFutures j).isSome = true ∨ cb = .bridge j := by
  have same : (onComplete s cb w result ms).1 = effect := by rw [h]
  subst same
  cases cb with
  | store k fmt dir =>
    have kept : (onComplete s (.store k fmt dir) w result ms).1.1.resultFutures =
        s.resultFutures := by
      simp only [onComplete, markRunning, markFailed]
      repeat' split
      all_goals rfl
    simp [kept]
  | bridge k =>
    simp only [onComplete]
    by_cases here : j = k
    · subst here
      cases was : s.resultFutures j <;> simp [was]
    · have other : ¬ OnComplete.bridge k = .bridge j :=
        fun same => here (OnComplete.bridge.inj same).symm
      cases was : s.resultFutures k <;> simp [Function.update_of_ne here, other]

private theorem Change.bridges (before : Visit cfg P tr s) (change : Change cfg s₀ e s s' o)
    {j : JobId} (h : s.bridges j) : s'.bridges j := by
  have same : s.items ⊆ s'.items → s'.tasks = s.tasks → s'.resultFutures = s.resultFutures →
      s'.bridges j := fun items tasks futures => by
    rcases h with ⟨item, member, cb⟩ | ⟨k, t, task, bridge⟩ | done
    · exact .inl ⟨item, items member, cb⟩
    · exact .inr (.inl ⟨k, t, tasks ▸ task, bridge⟩)
    · exact .inr (.inr (futures ▸ done))
  have update : ∀ {k t'}, s.items ⊆ s'.items → s'.tasks = Function.update s.tasks k (some t') →
      (s'.resultFutures = s.resultFutures) →
      (∀ t, s.tasks k = some t → t.bridge? = some j → t'.bridge? = some j) → s'.bridges j :=
    fun {k t'} items tasks futures kept => by
      rcases h with ⟨item, member, cb⟩ | ⟨i, t, task, bridge⟩ | done
      · exact .inl ⟨item, items member, cb⟩
      · refine .inr (.inl ?_)
        rw [tasks]
        by_cases here : i = k
        · subst here
          exact ⟨i, t', Function.update_self .., kept t task bridge⟩
        · exact ⟨i, t, by rwa [Function.update_of_ne here], bridge⟩
      · exact .inr (.inr (futures ▸ done))
  have alike : ∀ {k t t'}, s.items ⊆ s'.items → s.tasks k = some t →
      s'.tasks = Function.update s.tasks k (some t') → s'.resultFutures = s.resultFutures →
      (t.bridge? = some j → t'.bridge? = some j) → s'.bridges j :=
    fun {k t t'} items task tasks futures kept => update items tasks futures fun u there bridge =>
      kept (by rwa [← Option.some.inj (there.symm.trans task)])
  have all : s.items ⊆ s.items := List.Subset.refl _
  have loop : ∀ {drain : DrainPc}, drain.item? = s.drain.item? →
      s.items ⊆ drain.item?.toList ++ s.queue := fun same => by rw [same]; exact all
  cases change with
  | jobQueued | bridgeQueued => exact same (by simp [State.items]) rfl rfl
  | streamQueued fresh =>
    refine update (by simp [State.items]) rfl rfl fun t task => ?_
    simp [tasks_of_fresh before (placed before) fresh] at task
  | cloneStart _ fresh =>
    refine update all rfl rfl fun t task => ?_
    simp [tasks_of_fresh before (placed before) fresh] at task
  | drainWaits hand | drainRaises hand | drainDispatches _ _ hand =>
    exact same (by rw [hand.items]; simp [State.items, DrainPc.item?]) rfl rfl
  | drainPut loop => exact same (by simp [State.items, loop, DrainPc.item?]) rfl rfl
  | @handedOver item w loop =>
    rcases h with ⟨item', member, cb⟩ | ⟨k, t, task, bridge⟩ | done
    · obtain rfl | queued : item' = item ∨ item' ∈ s.queue := by
        simpa [State.items, loop, DrainPc.item?] using member
      · refine .inr (.inl ⟨item'.jobId, .collector w item'.request (.bridge j)
          item'.enqueuedAt .ready, ?_, rfl⟩)
        dsimp only
        rw [handedOver_callback before loop cb, Function.update_self]
      · exact .inl ⟨item', List.mem_append_right _ queued, cb⟩
    · refine .inr (.inl ⟨k, t, ?_, bridge⟩)
      have busy : t.idle = false := by cases t <;> first | rfl | cases bridge
      have mine : item ∈ s.items := by simp [State.items, loop, DrainPc.item?]
      have apart := ((placed before).unclaimed item mine).ne_of_busy task busy
      rcases handedOver_cases before loop with ⟨cb', -, -, tasks⟩ | ⟨-, tasks⟩ | ⟨-, tasks⟩
      · simpa only [tasks, Function.update_of_ne apart.symm] using task
      · simpa only [tasks, Function.update_of_ne apart.symm] using task
      · exact tasks ▸ task
    · exact .inr (.inr done)
  | move task move => exact alike all task rfl rfl (by rw [move.bridge?]; exact id)
  | getReply task blocked =>
    exact alike all task rfl rfl (by rw [Task.bridge?_deliver blocked]; exact id)
  | @collected k w r cb t t0 outcome result workers drain i next _ _ _ _ task _ slot call =>
    have resolved := onComplete_futures call j
    rcases h with ⟨item, member, bridge⟩ | ⟨l, u, there, bridge⟩ | done
    · exact .inl ⟨item, loop slot.item? member, bridge⟩
    · by_cases here : l = k
      · subst here
        obtain rfl := Option.some.inj (task.symm.trans there)
        refine .inr (.inr (resolved.mpr (.inr ?_)))
        cases cb with
        | bridge j' => rw [Option.some.inj bridge]
        | store => cases bridge
      · exact .inr (.inl ⟨l, u, by dsimp only; rwa [Function.update_of_ne here], bridge⟩)
    · exact .inr (.inr (resolved.mpr (.inl done)))
  | leave task left slot =>
    exact alike (loop slot.item?) task rfl rfl fun bridge => by cases bridge
  | cloneDone _ task slot =>
    exact alike (loop slot.item?) task rfl rfl fun bridge => by cases bridge
  | clonePut task | cancelAwaiting _ task | cancelAssigned _ task =>
    exact alike all task rfl rfl fun bridge => by cases bridge
  | saveOpen task | saveWrite task | saved task =>
    exact alike all task rfl rfl fun bridge => by cases bridge
  | _ => exact same all rfl rfl

theorem step_bridges (h : Reach (server cfg) P tr s) (meets : P s e)
    (taken : step cfg s e = some (s', o)) {j : JobId} (bridge : s.bridges j) : s'.bridges j :=
  (visit_of_reach h).keeps_along (I := fun a => a.bridges j) (step_changes taken)
    (fun _ _ _ change => ⟨s, e, meets, change⟩) bridge fun there change now =>
      change.bridges there now

/-! ### Callbacks that save -/

/-- Only the callback of a job with a record goes on to save. -/
def Task.savesIll : Task → Bool
  | .collector _ _ (.bridge _) _ pc => !pc.holds && pc ≠ .ended
  | _ => false

private theorem Task.savesIll_deliver {t : Task} {t0 : ℚ} (blocked : t.getting? = some t0)
    (outcome : GetOutcome) : (t.deliver outcome).savesIll = false := by
  cases t with
  | collector w r cb at' pc =>
    cases pc <;> simp_all [Task.getting?, Task.deliver]
    cases cb <;> rfl
  | stream r pc => cases pc <;> simp_all [Task.getting?, Task.deliver, Task.savesIll]
  | clone w r pc => cases pc <;> simp_all [Task.getting?, Task.deliver, Task.savesIll]

private theorem Move.savesIll {now : ℚ} {j : JobId} {t t' : Task} {frame : Option Frame}
    (h : Move cfg now j e t t' frame) (fine : t.savesIll = false) : t'.savesIll = false := by
  cases h with
  | timeout blocked | error blocked => exact Task.savesIll_deliver blocked _
  | @collectorStart w r cb | @collectorRaised w r cb => cases cb <;> rfl
  | @saveRaise w r cb =>
    cases cb with
    | store => rfl
    | bridge => cases fine
  | _ => rfl

theorem bridge_saves_nothing (h : Visit cfg P tr s) :
    ∀ j t, s.tasks j = some t → t.savesIll = false := by
  induction h using visit_induction with
  | start => simp [State.init]
  | @change s₀ e s s' tr o before ih meets change =>
    have update : ∀ {j : JobId} {t' : Task}, t'.savesIll = false → ∀ k t,
        Function.update s.tasks j (some t') k = some t → t.savesIll = false :=
      fun fine => forall_of_update (p := fun _ t => Task.savesIll t = false) fine ih
    cases change with
    | streamQueued | cloneStart | clonePut | leave | cloneDone | cancelAwaiting | cancelAssigned
    | saveOpen | saveWrite | saved => exact update rfl
    | handedOver loop =>
      dsimp only
      rcases handedOver_cases before loop with ⟨cb, -, -, tasks⟩ | ⟨-, tasks⟩ | ⟨-, tasks⟩
      · refine tasks ▸ update ?_
        cases cb <;> rfl
      · exact tasks ▸ update rfl
      · exact tasks ▸ ih
    | move task move => exact update (move.savesIll (ih _ _ task))
    | getReply task blocked => exact update (Task.savesIll_deliver blocked _)
    | @collected k w r cb t t0 outcome result workers drain i next _ _ _ _ _ _ _ call =>
      refine update ?_
      cases cb with
      | store => rfl
      | bridge j =>
        obtain rfl : .ended = next := congrArg Prod.snd call
        rfl
    | _ => exact ih

end XttsServer.Model
