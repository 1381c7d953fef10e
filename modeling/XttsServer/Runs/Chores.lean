import XttsServer.Foundations.Sums
import XttsServer.Runs.Advance

/-!
What the server and its workers have left to do for what has come in. Their own steps
make it less, and only clients and the chunks of a stream make it more.
-/

set_option autoImplicit false
set_option relaxedAutoImplicit false

namespace XttsServer.Model

open XttsServer.Foundations XttsServer.Foundations.Transition

variable {cfg : Config} {P : State → Event → Prop} {s s' s₀ : State} {e : Event} {tr o : List Obs}

/-! ### The work that is left -/

/-- A step of the event loop, an executor thread, a socket or a worker that brings something to an
end. -/
def Event.busy : Event → Bool
  | .resumeDrain => true
  | .drainPut => true
  | .clonePut _ => true
  | .resume _ => true
  | .getReply _ => true
  | .getTimeout _ => true
  | .getError _ _ => true
  | .saveOpen _ => true
  | .saveWrite _ => true
  | .saveRaise _ => true
  | .sent _ => true
  | .sendFails _ _ => true
  | .workerTake _ => true
  | .workerReply _ _ => true
  | .openFile _ => true
  | .deleteAfterSend _ _ => true
  | _ => false

/-- A busy step without a worker; a wait for a worker fails by its timeout only. -/
def Event.unaided : Event → Bool
  | .resumeDrain => true
  | .drainPut => true
  | .clonePut _ => true
  | .resume _ => true
  | .getReply _ => true
  | .getTimeout _ => true
  | .saveOpen _ => true
  | .saveWrite _ => true
  | .saveRaise _ => true
  | .sent _ => true
  | _ => false

theorem Event.busy_of_unaided (unaided : e.unaided = true) : e.busy = true := by
  cases e <;> first | rfl | cases unaided

/-- What the loop has left to do for the item it has in hand; a notified loop may find all workers
taken again. -/
def DrainPc.chores : DrainPc → Nat
  | .getting => 0
  | .waiting _ notified => if notified then 46 else 45
  | .putting _ _ => 40
  | .put _ _ => 25
  | .raised _ => 0

def CollectPc.chores : CollectPc → Nat
  | .ready => 14
  | .getting _ => 12
  | .got _ _ => 10
  | .saving _ opened => if opened then 4 else 6
  | .saved => 2
  | .saveRaised => 2
  | .ended => 0

/-- A message in hand may be one of many, a wait that has failed is the last. -/
def StreamPc.chores : StreamPc → Nat
  | .awaiting => 0
  | .assigned _ => 14
  | .getting _ _ => 12
  | .got _ (.item _) => 20
  | .got _ _ => 10
  | .sending _ _ => 16
  | .closing _ _ => 8
  | .reporting => 4
  | .ended => 0

def ClonePc.chores : ClonePc → Nat
  | .putting => 30
  | .put => 14
  | .getting _ => 12
  | .got _ => 10
  | .ended => 0

def Task.chores : Task → Nat
  | .collector _ _ _ _ pc => pc.chores
  | .stream _ pc => pc.chores
  | .clone _ _ pc => pc.chores

/-- A request that the process has not answered costs it two steps and puts a message. -/
def Process.chores (p : Process) : Nat := 12 * p.requestQueue.length + p.current.elim 0 fun _ => 11

def DownloadPc.chores : DownloadPc → Nat
  | .opening _ _ => 2
  | .sending _ _ => 1
  | .ended => 0

def State.taskChores (s : State) (j : JobId) : Nat := (s.tasks j).elim 0 Task.chores

/-- The work left for the tasks of these requests, the messages that wait for them, the loop and
the queue, the first `n` workers and the downloads. -/
def State.chores (s : State) (known : Finset Request) (n : Nat) : Nat :=
  50 * s.queue.length + s.drain.chores + ∑ r ∈ known, s.taskChores r.jobId +
    ∑ r ∈ known, 10 * (s.resultQueues r.resultQueue).length +
    ∑ w ∈ Finset.range n, (s.processes w).chores + (s.downloads.map DownloadPc.chores).sum

def Obs.chores : Obs → Nat
  | .accepted _ => 50
  | .dispatched (.computeLatents _) _ => 30
  | .replied _ _ (.chunk _) => 10
  | .audio _ _ (.ok _) => 2
  | _ => 0

def broughtIn (tr : List Obs) : Nat := (tr.map Obs.chores).sum

@[simp] theorem broughtIn_append (tr o : List Obs) :
    broughtIn (tr ++ o) = broughtIn tr + broughtIn o := by
  rw [broughtIn, List.map_append, List.sum_append]
  rfl

private theorem DrainPc.chores_notify (pc : DrainPc) : pc.notify.chores ≤ pc.chores + 1 := by
  cases pc with
  | waiting item notified => cases notified <;> simp [DrainPc.notify, DrainPc.chores]
  | _ => exact Nat.le_succ _

private theorem State.releases.chores {w : WorkerRef} {ms : ℚ} {j : JobId}
    {workers : List WorkerHandle}
    {drain : DrainPc} {i : Option WorkerRef} (h : s.releases w ms j workers drain i) :
    drain.chores ≤ s.drain.chores + 1 := by
  rcases h.drain_eq with rfl | rfl
  · exact Nat.le_succ _
  · exact DrainPc.chores_notify _

/-- The requests of the tasks, the items and the workers, told apart by their ids and their
queues. -/
structure Tracks (known : Finset Request) (n : Nat) (s : State) : Prop where
  ids : ∀ r ∈ known, ∀ r' ∈ known, r.jobId = r'.jobId → r = r'
  queues : ∀ r ∈ known, ∀ r' ∈ known, r.resultQueue = r'.resultQueue → r = r'
  items : ∀ item ∈ s.items, item.request ∈ known
  tasks : ∀ j t, s.tasks j = some t → t.request ∈ known ∧ t.request.jobId = j
  works : ∀ w, ∀ r ∈ (s.processes w).backlog, r ∈ known ∧ w < n

def workerCount (cfg : Config) : Nat := (start cfg.cudaOk cfg.settings.workersPerGpuList).length

private theorem workers_length (h : Visit cfg P tr s) : s.workers.length = workerCount cfg := by
  simpa [workerCount] using congrArg List.length (ids_fixed h)

private theorem tracks_of_subset {all : List Obs} {last : State} (h : Visit cfg P tr s)
    (whole : Visit cfg P all last) (sub : requests tr ⊆ requests all) :
    Tracks (requests all).toFinset (workerCount cfg) s where
  ids _ known _ known' :=
    request_of_id whole (List.mem_toFinset.mp known) (List.mem_toFinset.mp known')
  queues _ known _ known' :=
    request_of_queue whole (List.mem_toFinset.mp known) (List.mem_toFinset.mp known')
  items _ member := List.mem_toFinset.mpr (sub (request_mem_requests (items_accepted h member)))
  tasks _ _ task := ⟨List.mem_toFinset.mpr (sub (request_known h task)), request_named h task⟩
  works w r member := by
    have told := (handled h).dispatched w r member
    exact ⟨List.mem_toFinset.mpr (sub (dispatched_request h told)),
      workers_length h ▸ dispatched_range h told⟩

theorem tracks (h : Visit cfg P tr s) : Tracks (requests tr).toFinset (workerCount cfg) s :=
  tracks_of_subset h h (List.Subset.refl _)

section Chores

variable {known : Finset Request} {n : Nat} {j : JobId} {t t' : Task}

private theorem taskChores_of_task (task : s.tasks j = some t) : s.taskChores j = t.chores := by
  rw [State.taskChores, task, Option.elim_some]

private theorem sum_taskChores (s' : State) (tracks : Tracks known n s) {r : Request}
    (member : r ∈ known) (tasks : s'.tasks = Function.update s.tasks r.jobId (some t')) :
    ∑ x ∈ known, s'.taskChores x.jobId + s.taskChores r.jobId =
      ∑ x ∈ known, s.taskChores x.jobId + t'.chores := by
  have now : s'.taskChores r.jobId = t'.chores :=
    taskChores_of_task (by rw [tasks, Function.update_self])
  rw [← now]
  refine sum_of_one (f := fun x => s.taskChores x.jobId) member fun x there other => ?_
  have apart : x.jobId ≠ r.jobId := fun same => other (tracks.ids x there r member same)
  rw [State.taskChores, tasks, Function.update_of_ne apart]
  rfl

private theorem sum_taskChores_le (s' : State) (tracks : Tracks known n s)
    (tasks : s'.tasks = Function.update s.tasks j (some t')) :
    ∑ x ∈ known, s'.taskChores x.jobId ≤ ∑ x ∈ known, s.taskChores x.jobId + t'.chores := by
  refine sum_le_of_key (k := j) tracks.ids fun x _ => ?_
  split_ifs with here
  · rw [taskChores_of_task (by rw [tasks, here, Function.update_self])]
    exact Nat.le_add_left _ _
  · rw [State.taskChores, tasks, Function.update_of_ne here]
    exact Nat.le_refl _

private theorem sum_queues_put (tracks : Tracks known n s) {q : QueueId} {m : Message} :
    ∑ r ∈ known, 10 * (Function.update s.resultQueues q (s.resultQueues q ++ [m])
        r.resultQueue).length ≤
      ∑ r ∈ known, 10 * (s.resultQueues r.resultQueue).length + 10 := by
  refine sum_le_of_key (k := q) tracks.queues fun r _ => ?_
  split_ifs with here
  · rw [here, Function.update_self, List.length_append, List.length_singleton]
    omega
  · rw [Function.update_of_ne here]
    exact Nat.le_refl _

private theorem sum_processes (processes : WorkerRef → Process) (p : Process) {w : WorkerRef}
    (inside : w < n) :
    ∑ v ∈ Finset.range n, (Function.update processes w p v).chores + (processes w).chores =
      ∑ v ∈ Finset.range n, (processes v).chores + p.chores := by
  have here : (Function.update processes w p w).chores = p.chores := by rw [Function.update_self]
  rw [← here]
  refine sum_of_one (f := fun v => (processes v).chores) (Finset.mem_range.mpr inside)
    fun v _ other => ?_
  rw [Function.update_of_ne other]

private theorem sum_processes_put (processes : WorkerRef → Process) (w : WorkerRef) (r : Request) :
    ∑ v ∈ Finset.range n, (Function.update processes w
        { processes w with requestQueue := (processes w).requestQueue ++ [r] } v).chores ≤
      ∑ v ∈ Finset.range n, (processes v).chores + 12 := by
  by_cases inside : w < n
  · have moved := sum_processes processes
      { processes w with requestQueue := (processes w).requestQueue ++ [r] } inside
    simp only [Process.chores, List.length_append, List.length_singleton] at moved ⊢
    omega
  · have same : ∀ v ∈ Finset.range n, (Function.update processes w
        { processes w with requestQueue := (processes w).requestQueue ++ [r] } v).chores =
          (processes v).chores := fun v member => by
      have apart : v ≠ w := fun same => inside (same ▸ Finset.mem_range.mp member)
      rw [Function.update_of_ne apart]
    rw [Finset.sum_congr rfl same]
    exact Nat.le_add_right _ _

theorem chores_task (tracks : Tracks known n s) (task : s.tasks j = some t)
    (tasks : s'.tasks = Function.update s.tasks j (some t')) (queue : s'.queue = s.queue)
    (drain : s'.drain.chores ≤ s.drain.chores + 1) (queues : s'.resultQueues = s.resultQueues)
    (processes : s'.processes = s.processes) (downloads : s'.downloads = s.downloads)
    (less : t'.chores + 2 ≤ t.chores) : s'.chores known n < s.chores known n := by
  obtain ⟨member, rfl⟩ := tracks.tasks j t task
  have moved := sum_taskChores _ tracks member tasks
  rw [taskChores_of_task task] at moved
  rw [State.chores, State.chores, queue, queues, processes, downloads]
  omega

theorem Task.chores_deliver {t : Task} {t0 : ℚ} (blocked : t.getting? = some t0)
    {outcome : GetOutcome} (failed : ∀ m, outcome ≠ .item m) :
    (t.deliver outcome).chores + 2 ≤ t.chores := by
  cases t with
  | collector w r cb at' pc =>
    cases pc <;> simp [Task.getting?] at blocked
    simp [Task.deliver, Task.chores, CollectPc.chores]
  | stream r pc =>
    cases pc <;> simp [Task.getting?] at blocked
    cases outcome <;> simp [Task.deliver, Task.chores, StreamPc.chores] at failed ⊢
  | clone w r pc =>
    cases pc <;> simp [Task.getting?] at blocked
    simp [Task.deliver, Task.chores, ClonePc.chores]

private theorem Task.chores_message {t : Task} {t0 : ℚ} (blocked : t.getting? = some t0)
    (m : Message) :
    (t.deliver (.item m)).chores ≤ t.chores + 8 := by
  cases t with
  | collector w r cb at' pc =>
    cases pc <;> simp [Task.getting?] at blocked
    simp [Task.deliver, Task.chores, CollectPc.chores]
  | stream r pc =>
    cases pc <;> simp [Task.getting?] at blocked
    simp [Task.deliver, Task.chores, StreamPc.chores]
  | clone w r pc =>
    cases pc <;> simp [Task.getting?] at blocked
    simp [Task.deliver, Task.chores, ClonePc.chores]

private theorem Move.chores {now : ℚ} {frame : Option Frame} (h : Move cfg now j e t t' frame) :
    t'.chores + 2 ≤ t.chores := by
  cases h with
  | timeout blocked => exact Task.chores_deliver blocked (by simp)
  | error blocked => exact Task.chores_deliver blocked (by simp)
  | @saveRaise _ _ _ _ _ opened => cases opened <;> simp [Task.chores, CollectPc.chores]
  | _ => simp [Task.chores, CollectPc.chores, StreamPc.chores, ClonePc.chores]

private theorem Leave.chores {w : WorkerRef} {pc next : StreamPc} {frame : Option Frame}
    (h : Leave j e w pc next frame) : next.chores + 2 ≤ pc.chores := by
  cases h with
  | @cancelGot _ outcome => cases outcome <;> simp [StreamPc.chores]
  | sendFails after | closeFails after => rcases after with rfl | rfl <;> simp [StreamPc.chores]
  | _ => simp [StreamPc.chores]

private theorem onComplete_chores (s : State) (cb : OnComplete) (w : WorkerRef)
    (result : SynthesisResult) (elapsedMs : ℚ) :
    (onComplete s cb w result elapsedMs).2.chores ≤ 6 := by
  unfold onComplete
  cases cb with
  | bridge jobId => exact Nat.zero_le _
  | store jobId fmt dir =>
    dsimp only
    split
    · split
      · exact Nat.zero_le _
      · exact le_rfl
    · exact le_rfl

end Chores

private theorem chores_getReply {known : Finset Request} {n : Nat} {j : JobId} {t : Task} {t0 : ℚ}
    {m : Message} {rest : List Message} (tracks : Tracks known n s) (task : s.tasks j = some t)
    (blocked : t.getting? = some t0) (head : s.resultQueues t.request.resultQueue = m :: rest) :
    State.chores { s with
      tasks := Function.update s.tasks j (some (t.deliver (.item m)))
      resultQueues := Function.update s.resultQueues t.request.resultQueue rest } known n <
    s.chores known n := by
  obtain ⟨member, rfl⟩ := tracks.tasks j t task
  have moved := sum_taskChores { s with
    tasks := Function.update s.tasks t.request.jobId (some (t.deliver (.item m)))
    resultQueues := Function.update s.resultQueues t.request.resultQueue rest } tracks member rfl
  have fetched := sum_of_one (f := fun r => 10 * (s.resultQueues r.resultQueue).length)
    (g := fun r => 10 * (Function.update s.resultQueues t.request.resultQueue rest
      r.resultQueue).length) member fun r there other => by
    have apart : r.resultQueue ≠ t.request.resultQueue :=
      fun same => other (tracks.queues r there _ member same)
    rw [Function.update_of_ne apart]
  have gains := Task.chores_message blocked m
  rw [taskChores_of_task task] at moved
  simp only [Function.update_self, head, List.length_cons] at fetched
  simp only [State.chores] at moved ⊢
  omega

private theorem chores_handOver {known : Finset Request} {n : Nat} {item : QueuedItem}
    {w : WorkerRef} (before : Visit cfg P tr s) (tracks : Tracks known n s)
    (loop : s.drain = .put item w) :
    State.chores { s with drain := .getting, tasks := (handOver s item w).tasks } known n <
    s.chores known n := by
  have handed : ∀ t : Task, t.chores = 14 →
      (handOver s item w).tasks = Function.update s.tasks item.jobId (some t) →
      State.chores { s with drain := .getting, tasks := (handOver s item w).tasks } known n <
        s.chores known n := by
    intro t fourteen tasks
    have moved : ∑ x ∈ known, State.taskChores
        { s with drain := .getting, tasks := (handOver s item w).tasks } x.jobId ≤
          ∑ x ∈ known, s.taskChores x.jobId + t.chores := sum_taskChores_le _ tracks tasks
    simp only [State.chores, loop, DrainPc.chores] at moved ⊢
    omega
  rcases handedOver_cases before loop with ⟨cb, -, -, tasks⟩ | ⟨-, tasks⟩ | ⟨-, tasks⟩
  · exact handed _ rfl tasks
  · exact handed _ rfl tasks
  · simp only [State.chores, State.taskChores, tasks, loop, DrainPc.chores]
    omega

private theorem Event.not_busy_of_submits (submits : e.submits = true) : e.busy = false := by
  cases e <;> simp [Event.submits] at submits <;> rfl

/-! ### What a change leaves to do -/

/-- Each change leaves no more to do than there was and came in, and those of a busy step leave
less. -/
private theorem Change.chores {known : Finset Request} {n : Nat} (before : Visit cfg P tr s)
    (tracks : Tracks known n s) (change : Change cfg s₀ e s s' o) :
    (e.busy = true → s'.chores known n < s.chores known n) ∧
      s'.chores known n ≤ s.chores known n + broughtIn o := by
  have idle : e.busy = false → s'.chores known n ≤ s.chores known n + broughtIn o →
      (e.busy = true → s'.chores known n < s.chores known n) ∧
        s'.chores known n ≤ s.chores known n + broughtIn o := fun idle least =>
    ⟨fun busy => absurd busy (by rw [idle]; exact Bool.false_ne_true), least⟩
  have less : s'.chores known n < s.chores known n →
      (e.busy = true → s'.chores known n < s.chores known n) ∧
        s'.chores known n ≤ s.chores known n + broughtIn o := fun less =>
    ⟨fun _ => less, Nat.le_add_right_of_le less.le⟩
  have taken : ∀ {item rest} {pc : DrainPc} {workers : List WorkerHandle}, s.atHand item rest →
      pc.chores ≤ 45 →
      State.chores { s with queue := rest, drain := pc, workers } known n < s.chores known n := by
    intro item rest pc workers hand small
    rcases hand with ⟨loop, queue⟩ | ⟨loop, queue⟩
    · have none : s.drain.chores = 0 := by rw [loop]; rfl
      simp only [State.chores, State.taskChores, queue, List.length_cons]
      omega
    · have woken : s.drain.chores = 46 := by rw [loop]; rfl
      simp only [State.chores, State.taskChores, queue]
      omega
  cases change with
  | drawn _ submits | jobTurnedAway _ _ _ submits | batchRefused _ _ _ submits
  | requestRefused _ _ submits | answered _ _ submits =>
    exact idle (Event.not_busy_of_submits submits) (Nat.le_add_right _ _)
  | jobRaised _ raises =>
    refine idle ?_ (Nat.le_add_right _ _)
    cases e <;> simp [Event.makeQueueRaises] at raises <;> rfl
  | tick _ event | cloneRaises _ _ event | evict event =>
    exact idle (by rw [event]; rfl) (Nat.le_add_right _ _)
  | jobQueued _ _ submits | bridgeQueued _ _ submits =>
    refine idle (Event.not_busy_of_submits submits) ?_
    simp only [State.chores, State.taskChores, List.length_append, List.length_singleton, broughtIn,
      List.map_cons, List.map_nil, List.sum_cons, List.sum_nil, Obs.chores]
    omega
  | @streamQueued s request _ _ _ submits =>
    refine idle (Event.not_busy_of_submits submits) ?_
    have opened := sum_taskChores_le { s with
      tasks := Function.update s.tasks request.jobId (some (.stream (.stream request) .awaiting)) }
      tracks rfl
    simp only [State.chores, State.taskChores, List.length_append, List.length_singleton, broughtIn,
      List.map_cons, List.map_nil, List.sum_cons, List.sum_nil, Obs.chores, Task.chores,
      StreamPc.chores] at opened ⊢
    omega
  | @cloneStart j wavPath w event =>
    refine idle (by rw [event]; rfl) ?_
    have opened := sum_taskChores_le { s with
      tasks := Function.update s.tasks j
        (some (.clone w (.computeLatents ⟨j, wavPath, s.nextQueue⟩) .putting)) } tracks rfl
    simp only [State.chores, State.taskChores, broughtIn, List.map_cons, List.map_nil,
      List.sum_cons, List.sum_nil, Obs.chores, Task.chores, ClonePc.chores] at opened ⊢
    omega
  | @cancelAwaiting j r event =>
    refine idle (by rw [event]; rfl) ?_
    have closed := sum_taskChores_le
      { s with tasks := Function.update s.tasks j (some (.stream r .ended)) } tracks rfl
    simp only [State.chores, State.taskChores, Task.chores, StreamPc.chores] at closed ⊢
    omega
  | @cancelAssigned j r w event =>
    refine idle (by rw [event]; rfl) ?_
    have closed := sum_taskChores_le
      { s with tasks := Function.update s.tasks j (some (.stream r .ended)) } tracks rfl
    simp only [State.chores, State.taskChores, Task.chores, StreamPc.chores] at closed ⊢
    omega
  | @workerChunk w r rest chunk event =>
    refine idle (by rw [event]; rfl) ?_
    have more := sum_queues_put tracks (q := r.resultQueue) (m := .chunk ⟨r.jobId, chunk⟩)
    simp only [State.chores, State.taskChores, broughtIn, List.map_cons, List.map_nil,
      List.sum_cons, List.sum_nil, Obs.chores] at more ⊢
    omega
  | @getAudio j pc answer event _ next =>
    refine idle (by rw [event]; rfl) ?_
    have more : pc.chores ≤ broughtIn [.audio s.downloads.length j answer] := by
      rcases next with ⟨rfl, -⟩ | ⟨path, -, rfl, rfl⟩
      · exact Nat.zero_le _
      · exact le_rfl
    simp only [State.chores, State.taskChores, List.map_append, List.sum_append, List.map_cons,
      List.map_nil, List.sum_cons, List.sum_nil]
    omega
  | @clonePut j w r task =>
    refine less ?_
    obtain ⟨member, rfl⟩ : r ∈ known ∧ r.jobId = j := tracks.tasks j _ task
    have moved := sum_taskChores { s with
      tasks := Function.update s.tasks r.jobId (some (.clone w r .put)) } tracks member rfl
    have put := sum_processes_put (n := n) s.processes w r
    rw [taskChores_of_task task] at moved
    simp only [State.chores, State.taskChores, Task.chores, ClonePc.chores] at moved put ⊢
    omega
  | drainWaits hand => exact less (taken hand le_rfl)
  | drainRaises hand => exact less (taken hand (Nat.zero_le _))
  | drainDispatches _ _ hand => exact less (taken hand (by simp [DrainPc.chores]))
  | @drainPut item w loop =>
    refine less ?_
    have put := sum_processes_put (n := n) s.processes w item.request
    simp only [State.chores, State.taskChores, loop, DrainPc.chores] at put ⊢
    omega
  | handedOver loop => exact less (chores_handOver before tracks loop)
  | move task move =>
    exact less (chores_task tracks task rfl rfl (Nat.le_succ _) rfl rfl rfl move.chores)
  | getReply task blocked head => exact less (chores_getReply tracks task blocked head)
  | @collected j w r cb t t0 outcome result workers drain i next jobs futures statuses _
      task value slot call =>
    have small := onComplete_chores { s with workers, drain } cb w result ((s.now - t0) * 1000)
    rw [call] at small
    refine less (chores_task tracks task rfl rfl slot.chores rfl rfl rfl ?_)
    change next.chores ≤ 6 at small
    show next.chores + 2 ≤ 10
    omega
  | leave task left slot =>
    exact less (chores_task tracks task rfl rfl slot.chores rfl rfl rfl left.chores)
  | cloneDone _ task slot =>
    exact less (chores_task tracks task rfl rfl slot.chores rfl rfl rfl
      (by simp [Task.chores, ClonePc.chores]))
  | saveOpen task | saveWrite task | saved task =>
    exact less (chores_task tracks task rfl rfl (Nat.le_succ _) rfl rfl rfl
      (by simp [Task.chores, CollectPc.chores]))
  | @workerTake w r rest process =>
    refine less ?_
    have inside := (tracks.works w r (by simp [process, Process.backlog])).2
    have moved := sum_processes s.processes ⟨rest, some r⟩ inside
    simp only [process, Process.chores, List.length_cons, Option.elim_some,
      Option.elim_none] at moved
    simp only [State.chores, State.taskChores]
    simp only [Process.chores] at moved ⊢
    omega
  | @workerReply w r rest outcome _ process =>
    refine less ?_
    have inside := (tracks.works w r (by simp [process, Process.backlog])).2
    have moved := sum_processes s.processes ⟨rest, none⟩ inside
    have more := sum_queues_put tracks (q := r.resultQueue) (m := closingMessage r outcome)
    rw [process] at moved
    simp only [State.chores, State.taskChores]
    simp only [Process.chores, Option.elim_some, Option.elim_none] at moved ⊢
    omega
  | @openFile k j path download =>
    have moved := sum_map_set (f := DownloadPc.chores) (.sending j path) download
    refine less ?_
    simp only [State.chores, State.taskChores, DownloadPc.chores] at moved ⊢
    omega
  | vanished download | deleteAfterSend download =>
    have moved := sum_map_set (f := DownloadPc.chores) .ended download
    refine less ?_
    simp only [State.chores, State.taskChores, DownloadPc.chores] at moved ⊢
    omega

/-! ### What a step leaves to do -/

private theorem drainItem_drain (s : State) (item : QueuedItem) :
    (drainItem s item).1.drain = .waiting item false ∨ (drainItem s item).1.drain = .raised item ∨
      ∃ w, (drainItem s item).1.drain = .putting item w := by
  unfold drainItem
  split_ifs
  · exact .inl rfl
  · unfold drainDispatch
    split
    · exact .inr (.inl rfl)
    · exact .inr (.inr ⟨_, rfl⟩)

private theorem drainTop_drain (s : State) :
    s.queue = [] ∧ (drainTop s).1.drain = .getting ∨
      ∃ item, (drainTop s).1.drain = .waiting item false ∨ (drainTop s).1.drain = .raised item ∨
        ∃ w, (drainTop s).1.drain = .putting item w := by
  unfold drainTop
  split
  · rename_i empty
    exact .inl ⟨empty, rfl⟩
  · rename_i item rest _
    exact .inr ⟨item, drainItem_drain { s with queue := rest } item⟩

/-- The loop does not go round for nothing. -/
private theorem resumeDrain_moves (taken : resumeDrain s = some (s', o)) : s'.drain ≠ s.drain := by
  unfold resumeDrain at taken
  split at taken
  · rename_i loop
    split_ifs at taken with empty
    have next := drainTop_drain s
    rw [Option.some.inj taken] at next
    rcases next with ⟨none, -⟩ | ⟨item, next | next | ⟨w, next⟩⟩
    · exact absurd none empty
    all_goals rw [next, loop]; simp
  · rename_i item loop
    have next := drainItem_drain s item
    rw [Option.some.inj taken] at next
    rcases next with next | next | ⟨w, next⟩ <;> rw [next, loop] <;> simp
  · rename_i item w loop
    have next := drainTop_drain (handOver s item w)
    rw [Option.some.inj taken] at next
    rcases next with ⟨-, next⟩ | ⟨item', next | next | ⟨v, next⟩⟩ <;> rw [next, loop] <;> simp
  · cases taken

private theorem change_of_busy (taken : step cfg s e = some (s', o)) (busy : e.busy = true) :
    Change cfg s e s s' o ∨ s'.drain ≠ s.drain := by
  by_cases loop : e = .resumeDrain
  · subst loop
    exact .inr (resumeDrain_moves taken)
  · refine .inl (step_change taken ?_ loop)
    cases e <;> first | rfl | cases busy

/-- Each step leaves no more to do than there was and came in, and a busy one leaves less. The
requests counted are those of the whole run. -/
theorem step_chores {all : List Obs} {last : State} (whole : Visit cfg P all last)
    (h : Visit cfg P tr s) (meets : P s e) (taken : step cfg s e = some (s', o))
    (sub : requests (tr ++ o) ⊆ requests all) :
    (e.busy = true → s'.chores (requests all).toFinset (workerCount cfg) <
        s.chores (requests all).toFinset (workerCount cfg)) ∧
      s'.chores (requests all).toFinset (workerCount cfg) ≤
        s.chores (requests all).toFinset (workerCount cfg) + broughtIn o := by
  have changes := step_changes taken
  have moved := change_of_busy taken
  clear taken
  suffices goal : s' = s ∧ o = [] ∨ (e.busy = true →
      s'.chores (requests all).toFinset (workerCount cfg) <
        s.chores (requests all).toFinset (workerCount cfg)) ∧
      s'.chores (requests all).toFinset (workerCount cfg) ≤
        s.chores (requests all).toFinset (workerCount cfg) + broughtIn o by
    rcases goal with ⟨rfl, rfl⟩ | less
    · refine ⟨fun busy => ?_, Nat.le_add_right _ _⟩
      rcases moved busy with change | other
      · exact (change.chores h (tracks_of_subset h whole (by simpa using sub))).1 busy
      · exact absurd rfl other
    · exact less
  clear moved
  induction changes with
  | refl => exact .inl ⟨rfl, rfl⟩
  | @tail a b o₁ o₂ earlier change ih =>
    have visit : Visit cfg P (tr ++ o₁) a :=
      h.trans (earlier.mono fun _ _ _ change => ⟨_, _, meets, change⟩)
    have sub₁ : requests (tr ++ o₁) ⊆ requests all := by
      refine List.Subset.trans ?_ sub
      rw [← List.append_assoc, requests, requests, List.filterMap_append (l := tr ++ o₁)]
      exact List.subset_append_left _ _
    have now := change.chores visit (tracks_of_subset visit whole sub₁)
    rcases ih sub₁ with ⟨rfl, rfl⟩ | ⟨lt, le⟩
    · exact .inr now
    · rw [broughtIn_append]
      refine .inr ⟨fun busy => (now.1 busy).trans (lt busy), ?_⟩
      omega

private theorem Change.busy_queue (change : Change cfg s₀ e s s' o) (busy : e.busy = true) :
    s'.nextQueue = s.nextQueue := by
  cases change with
  | drawn _ submits | jobQueued _ _ submits | jobTurnedAway _ _ _ submits
  | batchRefused _ _ _ submits | bridgeQueued _ _ submits | streamQueued _ _ _ submits
  | requestRefused _ _ submits =>
    exact absurd busy (by rw [Event.not_busy_of_submits submits]; exact Bool.false_ne_true)
  | cloneStart event | cloneRaises _ _ event =>
    rw [event] at busy
    cases busy
  | _ => rfl

theorem step_requests (h : Visit cfg P tr s) (meets : P s e) (taken : step cfg s e = some (s', o))
    (busy : e.busy = true) : requests o = [] := by
  have changes := step_changes taken
  clear taken
  induction changes with
  | refl => rfl
  | @tail a b o₁ o₂ earlier change ih =>
    have visit : Visit cfg P (tr ++ o₁) a :=
      h.trans (earlier.mono fun _ _ _ change => ⟨_, _, meets, change⟩)
    have none_now : requests o₂ = [] := by
      rcases change.registers (fun item => undispatched_proper visit) with
        none | ⟨r, -, -, -, -, more⟩
      · exact none
      · rw [change.busy_queue busy] at more
        exact absurd more (Nat.ne_of_lt (Nat.lt_succ_self _))
    rw [requests, List.filterMap_append, ← requests, ← requests, ih, none_now]
    rfl

end XttsServer.Model
