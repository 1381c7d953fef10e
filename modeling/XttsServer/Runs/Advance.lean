import Mathlib.Algebra.BigOperators.Group.Finset.Basic
import XttsServer.Runs.Progress

/-!
How far a request is from its end, and the steps of the pipeline that bring it
nearer. Wherever a request stands, what it needs next is said by one lemma.
-/

set_option autoImplicit false
set_option relaxedAutoImplicit false

namespace XttsServer.Model

open XttsServer.Foundations XttsServer.Foundations.Transition

variable {cfg : Config} {P : State → Event → Prop} {s s' : State} {e : Event} {tr o : List Obs}

/-! ### The way ahead -/

/-- What the drain loop has to do for the request. Here and below, each place weighs more than
all that a request finds when it goes on from there. -/
def DrainPc.stepsFor (j : JobId) : DrainPc → Nat
  | .waiting item _ => if item.jobId = j then 136 else 0
  | .putting item _ => if item.jobId = j then 130 else 0
  | .put item _ => if item.jobId = j then 110 else 0
  | _ => 0

def CollectPc.steps : CollectPc → Nat
  | .ready => 80
  | .getting _ => 72
  | .got _ _ => 60
  | .saving _ false => 40
  | .saving _ true => 36
  | .saved => 20
  | .saveRaised => 20
  | .ended => 0

/-- A message costs a stream less than it counts for in its queue. -/
def StreamPc.steps : StreamPc → Nat
  | .awaiting => 0
  | .assigned _ => 80
  | .getting _ _ => 16
  | .got _ _ => 24
  | .sending _ _ => 20
  | .closing _ _ => 8
  | .reporting => 4
  | .ended => 0

def ClonePc.steps : ClonePc → Nat
  | .putting => 130
  | .put => 110
  | .getting _ => 72
  | .got _ => 60
  | .ended => 0

def Task.steps : Task → Nat
  | .collector _ _ _ _ pc => pc.steps
  | .stream _ pc => pc.steps
  | .clone _ _ pc => pc.steps

def Process.stepsFor (p : Process) (r : Request) : Nat :=
  14 * p.requestQueue.count r + if p.current = some r then 12 else 0

def State.workSteps (s : State) (r : Request) : Nat :=
  ∑ w ∈ Finset.range s.workers.length, (s.processes w).stepsFor r

def State.taskSteps (s : State) (j : JobId) : Nat := (s.tasks j).elim 0 Task.steps

/-- The way that the request has ahead of it in the server. -/
def State.steps (s : State) (r : Request) : Nat :=
  (if r.jobId ∈ s.queue.map QueuedItem.jobId then 140 else 0) + s.drain.stepsFor r.jobId +
    s.taskSteps r.jobId + 10 * (s.resultQueues r.resultQueue).length + s.workSteps r

@[simp] theorem DrainPc.stepsFor_notify (pc : DrainPc) (j : JobId) :
    pc.notify.stepsFor j = pc.stepsFor j := by cases pc <;> rfl

private theorem taskSteps_of_task {j : JobId} {t : Task} (task : s.tasks j = some t) :
    s.taskSteps j = t.steps := by rw [State.taskSteps, task, Option.elim_some]

private theorem taskSteps_update {j : JobId} {t : Task}
    (tasks : s'.tasks = Function.update s.tasks j (some t)) (k : JobId) :
    s'.taskSteps k = if k = j then t.steps else s.taskSteps k := by
  split_ifs with here
  · subst here
    exact taskSteps_of_task (by rw [tasks, Function.update_self])
  · rw [State.taskSteps, tasks, Function.update_of_ne here]
    rfl

private theorem workSteps_update {w : WorkerRef} {p : Process}
    (processes : s'.processes = Function.update s.processes w p)
    (workers : s'.workers.length = s.workers.length) (inside : w < s.workers.length) (r : Request) :
    s'.workSteps r + (s.processes w).stepsFor r = s.workSteps r + p.stepsFor r := by
  have member : w ∈ Finset.range s.workers.length := Finset.mem_range.mpr inside
  have split : ∀ f : WorkerRef → Nat, f w + ∑ v ∈ (Finset.range s.workers.length).erase w, f v =
      ∑ v ∈ Finset.range s.workers.length, f v := fun f => Finset.add_sum_erase _ f member
  have others : ∑ v ∈ (Finset.range s.workers.length).erase w, (s'.processes v).stepsFor r =
      ∑ v ∈ (Finset.range s.workers.length).erase w, (s.processes v).stepsFor r := by
    refine Finset.sum_congr rfl fun v apart => ?_
    rw [processes, Function.update_of_ne (Finset.ne_of_mem_erase apart)]
  have here : (s'.processes w).stepsFor r = p.stepsFor r := by rw [processes, Function.update_self]
  rw [State.workSteps, State.workSteps, workers, ← split,
    ← split fun v => (s.processes v).stepsFor r, others, here]
  omega

private theorem steps_task {j : JobId} {t t' : Task} (task : s.tasks j = some t)
    (named : t.request.jobId = j) (tasks : s'.tasks = Function.update s.tasks j (some t'))
    (queue : s'.queue = s.queue) (drain : ∀ k, s'.drain.stepsFor k = s.drain.stepsFor k)
    (queues : s'.resultQueues t.request.resultQueue = s.resultQueues t.request.resultQueue)
    (processes : s'.processes = s.processes) (workers : s'.workers.length = s.workers.length) :
    s'.steps t.request + t.steps = s.steps t.request + t'.steps := by
  have work : s'.workSteps t.request = s.workSteps t.request := by
    rw [State.workSteps, State.workSteps, processes, workers]
  rw [State.steps, State.steps, queue, drain, queues, work, named, taskSteps_update tasks,
    if_pos rfl, taskSteps_of_task task]
  omega

/-! ### Steps that advance a request -/

/-- A step of the pipeline itself: neither a client nor the clock nor a failure takes it. -/
def Event.internal (s : State) : Event → Bool
  | .resumeDrain => true
  | .drainPut => true
  | .clonePut _ => true
  | .resume _ => true
  | .getReply _ => true
  | .saveOpen _ => true
  | .saveWrite _ => true
  -- Without an array `save_audio` can do nothing but raise.
  | .saveRaise jobId =>
      match s.tasks jobId with
      | some (.collector _ _ _ _ (.saving result _)) => result.audio.isNone
      | _ => false
  | .sent _ => true
  | .workerTake _ => true
  | .workerChunk _ _ => true
  | .workerReply _ _ => true
  | _ => false

/-- The step is enabled, and the request is nearer to its end after it. -/
def Advances (cfg : Config) (s : State) (e : Event) (r : Request) : Prop :=
  e.internal s = true ∧ ∃ s' o, step cfg s e = some (s', o) ∧ s'.steps r + 2 ≤ s.steps r

private theorem State.releases.stepsFor {w : WorkerRef} {ms : ℚ} {j : JobId}
    {workers : List WorkerHandle} {drain : DrainPc} {i : Option WorkerRef}
    (h : s.releases w ms j workers drain i) (k : JobId) :
    drain.stepsFor k = s.drain.stepsFor k := by
  rcases h.drain_eq with rfl | rfl <;> simp

section Tasks

variable {j : JobId} {t t' : Task}

private theorem collectedResult_isSome (h : Visit cfg P tr s) {w : WorkerRef} {r : Request}
    {cb : OnComplete} {at' t0 : ℚ} {outcome : GetOutcome}
    (task : s.tasks j = some (.collector w r cb at' (.got t0 outcome))) :
    ∃ result, collectedResult cfg r.jobId outcome = some result := by
  cases outcome with
  | item m =>
    obtain ⟨v, told⟩ := tasks_heard h j _ task
    have answers := ((handled h).replied v r m told).2
    have fits := ((placed h).serves j _ task).fits
    cases fits
    cases m with
    | result result => exact ⟨result, rfl⟩
    | _ => cases answers
  | empty | error => exact ⟨_, rfl⟩

private theorem advance_task (h : Visit cfg P tr s) {r : Request} (task : s.tasks j = some t)
    (asks : t.request = r) (internal : e.internal s = true) (taken : step cfg s e = some (s', o))
    (tasks : s'.tasks = Function.update s.tasks j (some t')) (less : t'.steps + 2 ≤ t.steps)
    (queue : s'.queue = s.queue) (drain : ∀ k, s'.drain.stepsFor k = s.drain.stepsFor k)
    (queues : s'.resultQueues = s.resultQueues) (processes : s'.processes = s.processes)
    (workers : s'.workers.length = s.workers.length) : Advances cfg s e r := by
  subst asks
  have steps := steps_task task (request_named h task) tasks queue drain (by rw [queues]) processes
    workers
  exact ⟨internal, s', o, taken, by omega⟩

private theorem collector_advances (h : Visit cfg P tr s) {w : WorkerRef} {r : Request}
    {cb : OnComplete} {t : ℚ} {pc : CollectPc} (task : s.tasks j = some (.collector w r cb t pc))
    (free : (Task.collector w r cb t pc).call? = none)
    (running : (Task.collector w r cb t pc).finished = false) : Advances cfg s (.resume j) r := by
  cases pc with
  | ready =>
    have taken : step cfg s (.resume j) =
        some (s.setTask j (.collector w r cb t (.getting s.now)), []) := by
      simp only [step, resume, task, resumeCollector]
    exact advance_task h task rfl rfl taken rfl (by simp [Task.steps, CollectPc.steps]) rfl
      (fun _ => rfl) rfl rfl rfl
  | got t0 outcome =>
    obtain ⟨result, value⟩ := collectedResult_isSome h task
    obtain ⟨workers, drain, i, slot⟩ := releaseSlot_releases s w ((s.now - t0) * 1000) r.jobId
    obtain ⟨jobs, futures, next, statuses, call⟩ :=
      onComplete_frame { s with workers, drain } cb w result ((s.now - t0) * 1000)
    have taken : step cfg s (.resume j) = some ({ s with
          workers, drain, jobs, resultFutures := futures
          tasks := Function.update s.tasks j (some (.collector w r cb t next)) },
        i.toList.map (.released r.jobId) ++ [.completed cb w result] ++
          statuses.map (.marked cb.jobId)) := by
      simp only [step, resume, task, resumeCollector, value, slot.eq, call]
      rfl
    refine advance_task h task rfl rfl taken rfl ?_ rfl slot.stepsFor rfl rfl slot.length
    have settled := onComplete_holds call
    cases next with
    | saving result opened => cases opened <;> simp [Task.steps, CollectPc.steps]
    | ready | getting | got => cases settled
    | _ => simp [Task.steps, CollectPc.steps]
  | saved =>
    cases cb with
    | store k fmt dir =>
      have taken : step cfg s (.resume j) = some
          ((markDone s k (audioPath dir k fmt)).1.setTask j
            (.collector w r (.store k fmt dir) t .ended),
              (markDone s k (audioPath dir k fmt)).2) := by
        simp only [step, resume, task, resumeCollector]
      exact advance_task h task rfl rfl taken rfl (by simp [Task.steps, CollectPc.steps]) rfl
        (fun _ => rfl) rfl rfl rfl
    | bridge => cases bridge_saves_nothing h j _ task
  | saveRaised =>
    have taken : step cfg s (.resume j) = some (s.setTask j (.collector w r cb t .ended), []) := by
      simp only [step, resume, task, resumeCollector]
    exact advance_task h task rfl rfl taken rfl (by simp [Task.steps, CollectPc.steps]) rfl
      (fun _ => rfl) rfl rfl rfl
  | getting | saving => cases free
  | ended => cases running

private theorem leave_advances (h : Visit cfg P tr s) {r : Request} {pc next : StreamPc}
    {w : WorkerRef} (task : s.tasks j = some (.stream r pc)) (internal : e.internal s = true)
    (taken : ∀ s' o, leaveStream s j r w next = (s', o) → ∃ o', step cfg s e = some (s', o'))
    (less : next.steps + 2 ≤ pc.steps) : Advances cfg s e r := by
  obtain ⟨workers, drain, i, slot⟩ := releaseSlot_releases s w 0 j
  have left : leaveStream s j r w next = ({ s with
      workers, drain, tasks := Function.update s.tasks j (some (.stream r next)) },
      i.toList.map (.released j)) := by
    rw [leaveStream, slot.eq]
    rfl
  obtain ⟨o', taken⟩ := taken _ _ left
  exact advance_task h task rfl internal taken rfl less rfl slot.stepsFor rfl rfl slot.length

private theorem stream_advances (h : Visit cfg P tr s) {r : Request} {pc : StreamPc}
    (task : s.tasks j = some (.stream r pc)) (free : (Task.stream r pc).call? = none)
    (running : (Task.stream r pc).finished = false) (assigned : pc ≠ .awaiting) :
    Advances cfg s (.resume j) r ∨ Advances cfg s (.sent j) r := by
  -- A step of the handler that keeps its slot.
  have moves : ∀ {next : StreamPc}, resumeStream cfg s j r pc =
      some (s.setTask j (.stream r next), []) → next.steps + 2 ≤ pc.steps →
      Advances cfg s (.resume j) r := fun {next} value less => by
    have taken : step cfg s (.resume j) = some (s.setTask j (.stream r next), []) := by
      simp only [step, resume, task, value]
    exact advance_task h task rfl rfl taken rfl less rfl (fun _ => rfl) rfl rfl rfl
  have fewer : ∀ {m n : Nat}, m.ble n = true → m ≤ n := Nat.le_of_ble_eq_true
  cases pc with
  | assigned w => exact .inl (moves rfl (fewer rfl))
  | got w outcome =>
    refine .inl ?_
    cases outcome with
    | item m =>
      by_cases ends : ∃ x, m = .streamEnd x
      · obtain ⟨x, rfl⟩ := ends
        cases error : x.error with
        | none => exact moves (by simp only [resumeStream, error]; rfl) (fewer rfl)
        | some text =>
          by_cases empty : text = ""
          · exact moves (by simp only [resumeStream, error, empty, ne_eq, not_true, if_false]; rfl)
              (fewer rfl)
          · exact moves
              (by simp only [resumeStream, error, ne_eq, empty, not_false_iff, if_true]; rfl)
              (fewer rfl)
      · obtain ⟨c, rfl⟩ := stream_chunk h task fun x same => ends ⟨x, same⟩
        exact moves rfl (fewer rfl)
    | empty => exact moves rfl (fewer rfl)
    | error text =>
      refine leave_advances h task rfl
        (fun s' o (left : leaveStream s j r w .reporting = _) => ⟨o, ?_⟩) (fewer rfl)
      simp only [step, resume, task, resumeStream, left]
  | sending w chunk =>
    have taken : step cfg s (.sent j) = some (s.setTask j (.stream r (.getting w s.now)),
        [.frame j (.bytes chunk)]) := by simp only [step, sent, task]
    exact .inr (advance_task h task rfl rfl taken rfl (fewer rfl) rfl (fun _ => rfl) rfl rfl rfl)
  | closing w how =>
    refine .inr (leave_advances h task rfl
      (fun s' o (left : leaveStream s j r w .ended = _) =>
        ⟨.frame j how.frame :: o, ?_⟩) (fewer rfl))
    simp only [step, sent, task, left]
  | reporting =>
    have taken : step cfg s (.sent j) = some (s.setTask j (.stream r .ended),
        [.frame j (.error "Internal server error.")]) := by simp only [step, sent, task]
    exact .inr (advance_task h task rfl rfl taken rfl (fewer rfl) rfl (fun _ => rfl) rfl rfl rfl)
  | awaiting => exact absurd rfl assigned
  | getting => cases free
  | ended => cases running

private theorem clone_advances (h : Visit cfg P tr s) {w : WorkerRef} {r : Request} {pc : ClonePc}
    (task : s.tasks j = some (.clone w r pc)) (free : (Task.clone w r pc).call? = none)
    (running : (Task.clone w r pc).finished = false) : Advances cfg s (.resume j) r := by
  cases pc with
  | put =>
    have taken : step cfg s (.resume j) = some (s.setTask j (.clone w r (.getting s.now)), []) := by
      simp only [step, resume, task, resumeClone]
    exact advance_task h task rfl rfl taken rfl (by simp [Task.steps, ClonePc.steps]) rfl
      (fun _ => rfl) rfl rfl rfl
  | got outcome =>
    obtain ⟨workers, drain, i, slot⟩ := releaseSlot_releases s w 0 j
    have taken : step cfg s (.resume j) = some ({ s with
        workers, drain, tasks := Function.update s.tasks j (some (.clone w r .ended)) },
        i.toList.map (.released j)) := by
      simp only [step, resume, task, resumeClone, slot.eq]
      rfl
    exact advance_task h task rfl rfl taken rfl (by simp [Task.steps, ClonePc.steps]) rfl
      slot.stepsFor rfl rfl slot.length
  | putting | getting => cases free
  | ended => cases running

/-- A task that waits neither for a thread nor for its worker goes on. -/
theorem task_advances (h : Visit cfg P tr s) (task : s.tasks j = some t) (free : t.call? = none)
    (running : t.finished = false) (assigned : ∀ r, t ≠ .stream r .awaiting) :
    Advances cfg s (.resume j) t.request ∨ Advances cfg s (.sent j) t.request := by
  cases t with
  | collector => exact .inl (collector_advances h task free running)
  | stream r pc => exact stream_advances h task free running fun same => assigned r (by rw [same])
  | clone => exact .inl (clone_advances h task free running)

end Tasks

/-! ### The drain loop -/

private theorem drainItem_eq (s : State) (item : QueuedItem) :
    ∃ workers drain o, drainItem s item = ({ s with workers, drain }, o) ∧
      workers.length = s.workers.length ∧
      (∀ j, drain.stepsFor j ≤ if item.jobId = j then 136 else 0) ∧
      (allBusy s.workers = false → drain.stepsFor item.jobId ≤ 130) := by
  unfold drainItem
  split_ifs with busy
  · exact ⟨s.workers, .waiting item false, [], rfl, rfl, fun _ => Nat.le_refl _, by simp [busy]⟩
  · unfold drainDispatch
    split
    · exact ⟨s.workers, .raised item, [], rfl, rfl, fun _ => Nat.zero_le _, fun _ => Nat.zero_le _⟩
    · rename_i w _
      refine ⟨_, .putting item w, _, rfl, List.length_modify .., fun j => ?_, fun _ => ?_⟩
      · simp only [DrainPc.stepsFor]
        split_ifs <;> decide
      · simp [DrainPc.stepsFor]

/-- A step of the loop is no step back for any request but the one it was at. -/
theorem drainTop_eq (s : State) :
    ∃ queue workers drain o, drainTop s = ({ s with queue, workers, drain }, o) ∧
      workers.length = s.workers.length ∧ queue = s.queue.tail ∧
      ∀ j, drain.stepsFor j ≤ if j ∈ s.queue.head?.map QueuedItem.jobId then 136 else 0 := by
  unfold drainTop
  split
  · rename_i empty
    exact ⟨s.queue, s.workers, .getting, [], rfl, rfl, by rw [empty]; rfl, fun _ => Nat.zero_le _⟩
  · rename_i item rest queue
    obtain ⟨workers, drain, o, value, length, less, -⟩ := drainItem_eq { s with queue := rest } item
    refine ⟨rest, workers, drain, o, value, length, by rw [queue]; rfl, fun j => ?_⟩
    rw [queue]
    simpa [eq_comm] using less j

private theorem steps_front {r : Request} (queues : s'.resultQueues = s.resultQueues)
    (processes : s'.processes = s.processes) (workers : s'.workers.length = s.workers.length)
    (less : (if r.jobId ∈ s'.queue.map QueuedItem.jobId then 140 else 0) +
        s'.drain.stepsFor r.jobId + s'.taskSteps r.jobId + 2 ≤
      (if r.jobId ∈ s.queue.map QueuedItem.jobId then 140 else 0) +
        s.drain.stepsFor r.jobId + s.taskSteps r.jobId) : s'.steps r + 2 ≤ s.steps r := by
  have work : s'.workSteps r = s.workSteps r := by
    rw [State.workSteps, State.workSteps, processes, workers]
  rw [State.steps, State.steps, queues, work]
  omega

theorem queue_advances (h : Visit cfg P tr s) (loop : s.drain = .getting) {item : QueuedItem}
    {rest : List QueuedItem} (queue : s.queue = item :: rest) :
    Advances cfg s .resumeDrain item.request := by
  obtain ⟨queue', workers, drain, o, value, length, rfl, less⟩ := drainTop_eq s
  have taken : step cfg s .resumeDrain =
      some ({ s with queue := s.queue.tail, workers, drain }, o) := by
    simp only [step, resumeDrain, loop]
    rw [if_neg (by simp [queue]), value]
  refine ⟨rfl, _, o, taken, steps_front rfl rfl length ?_⟩
  have once : item.jobId ∉ rest.map QueuedItem.jobId := by
    have nodup := items_nodup h
    rw [State.items, loop, queue] at nodup
    exact (List.nodup_cons.mp nodup).1
  have less := less item.jobId
  simp only [queue, List.head?_cons, Option.map_some, Option.mem_def, if_true] at less
  simp only [queue, List.tail_cons, List.map_cons, List.mem_cons, true_or, if_true,
    State.taskSteps, QueuedItem.jobId] at less once ⊢
  rw [if_neg once]
  omega

theorem waiting_advances {item : QueuedItem} (loop : s.drain = .waiting item true)
    (free : allBusy s.workers = false) : Advances cfg s .resumeDrain item.request := by
  obtain ⟨workers, drain, o, value, length, -, less⟩ := drainItem_eq s item
  have taken : step cfg s .resumeDrain = some ({ s with workers, drain }, o) := by
    simp only [step, resumeDrain, loop, value]
  refine ⟨rfl, _, o, taken, steps_front rfl rfl length ?_⟩
  have less := less free
  have was : s.drain.stepsFor item.request.jobId = 136 := by rw [loop]; exact if_pos rfl
  simp only [QueuedItem.jobId, State.taskSteps] at less ⊢
  omega

private theorem taskSteps_handOver (h : Visit cfg P tr s) {item : QueuedItem} {w : WorkerRef}
    (loop : s.drain = .put item w) : (handOver s item w).taskSteps item.jobId ≤ 80 := by
  rcases handedOver_cases h loop with ⟨cb, -, -, tasks⟩ | ⟨-, tasks⟩ | ⟨dead, tasks⟩
  · rw [taskSteps_update tasks, if_pos rfl]
    exact Nat.le_refl _
  · rw [taskSteps_update tasks, if_pos rfl]
    exact Nat.le_refl _
  · rw [State.taskSteps, tasks, dead]
    exact Nat.zero_le _

theorem put_advances (h : Visit cfg P tr s) {item : QueuedItem} {w : WorkerRef}
    (loop : s.drain = .put item w) : Advances cfg s .resumeDrain item.request := by
  obtain ⟨queue', workers, drain, o, value, length, rfl, less⟩ := drainTop_eq (handOver s item w)
  have taken : step cfg s .resumeDrain = some ({ handOver s item w with
      queue := (handOver s item w).queue.tail, workers, drain }, o) := by
    simp only [step, resumeDrain, loop, value]
  rw [handOver_workers] at length
  rw [handOver_queue] at taken less
  have passed := taskSteps_handOver h loop
  have once : item.jobId ∉ s.queue.map QueuedItem.jobId := by
    have nodup := items_nodup h
    rw [State.items, loop] at nodup
    exact (List.nodup_cons.mp nodup).1
  have tail : item.jobId ∉ s.queue.tail.map QueuedItem.jobId := fun member =>
    once (List.map_subset _ (List.tail_subset _) member)
  have other : item.jobId ∉ s.queue.head?.map QueuedItem.jobId := fun member => by
    obtain ⟨item', head, same⟩ := Option.map_eq_some_iff.mp member
    exact once (same ▸ List.mem_map_of_mem (List.mem_of_head? head))
  have less := less item.jobId
  rw [if_neg other] at less
  refine ⟨rfl, _, o, taken, steps_front (by rw [handOver_frame]) (by rw [handOver_frame]) length ?_⟩
  have was : s.drain.stepsFor item.jobId = 110 := by rw [loop]; exact if_pos rfl
  simp only [State.taskSteps] at passed ⊢
  change item.request.jobId ∉ _ at once tail
  rw [if_neg once, if_neg tail]
  simp only [QueuedItem.jobId] at less was passed
  omega

/-! ### Threads and workers -/

private theorem steps_process {w : WorkerRef} {p : Process} {r : Request}
    (processes : s'.processes = Function.update s.processes w p) (inside : w < s.workers.length)
    (workers : s'.workers.length = s.workers.length) (queue : s'.queue = s.queue)
    (less : p.stepsFor r + 10 * (s'.resultQueues r.resultQueue).length + s'.drain.stepsFor r.jobId +
        s'.taskSteps r.jobId + 2 ≤
      (s.processes w).stepsFor r + 10 * (s.resultQueues r.resultQueue).length +
        s.drain.stepsFor r.jobId + s.taskSteps r.jobId) : s'.steps r + 2 ≤ s.steps r := by
  have work := workSteps_update processes workers inside r
  rw [State.steps, State.steps, queue]
  omega

private theorem stepsFor_put (p : Process) (r : Request) :
    ({ p with requestQueue := p.requestQueue ++ [r] } : Process).stepsFor r =
      p.stepsFor r + 14 := by
  simp only [Process.stepsFor, List.count_append, List.count_singleton_self]
  omega

theorem drainPut_advances (h : Visit cfg P tr s) {item : QueuedItem} {w : WorkerRef}
    (loop : s.drain = .putting item w) : Advances cfg s .drainPut item.request := by
  have taken : step cfg s .drainPut =
      some ({ putRequest s w item.request with drain := .put item w }, []) := by
    simp only [step, drainPut, loop]
  have inside := dispatched_range h (Unput.dispatched h (.drain loop))
  have was : s.drain.stepsFor item.request.jobId = 130 := by rw [loop]; exact if_pos rfl
  have next : (DrainPc.put item w).stepsFor item.request.jobId = 110 := if_pos rfl
  refine ⟨rfl, _, [], taken, steps_process rfl inside rfl rfl ?_⟩
  simp only [stepsFor_put, putRequest, State.taskSteps]
  omega

section Threads

variable {j : JobId} {t : Task}

theorem clonePut_advances (h : Visit cfg P tr s) {w : WorkerRef} {r : Request}
    (task : s.tasks j = some (.clone w r .putting)) : Advances cfg s (.clonePut j) r := by
  have taken : step cfg s (.clonePut j) =
      some ((putRequest s w r).setTask j (.clone w r .put), []) := by
    simp only [step, clonePut, task]
  have inside := dispatched_range h (Unput.dispatched h (.clone task))
  have named : r.jobId = j := request_named h task
  have was : s.taskSteps r.jobId = 130 := taskSteps_of_task (named ▸ task)
  have next : ((putRequest s w r).setTask j (.clone w r .put)).taskSteps r.jobId = 110 :=
    (taskSteps_update rfl _).trans (if_pos named)
  refine ⟨rfl, _, [], taken, steps_process rfl inside rfl rfl ?_⟩
  simp only [next, was, stepsFor_put]
  simp only [putRequest, State.setTask]
  omega

private theorem Task.steps_deliver {t0 : ℚ} (blocked : t.getting? = some t0) (m : Message) :
    (t.deliver (.item m)).steps ≤ t.steps + 8 := by
  cases t with
  | collector w r cb at' pc =>
    cases pc <;> simp_all [Task.getting?, Task.deliver, Task.steps, CollectPc.steps]
  | stream r pc => cases pc <;> simp_all [Task.getting?, Task.deliver, Task.steps, StreamPc.steps]
  | clone w r pc => cases pc <;> simp_all [Task.getting?, Task.deliver, Task.steps, ClonePc.steps]

private theorem steps_fetch {r : Request} (queue : s'.queue = s.queue) (drain : s'.drain = s.drain)
    (processes : s'.processes = s.processes) (workers : s'.workers = s.workers)
    (less : s'.taskSteps r.jobId + 10 * (s'.resultQueues r.resultQueue).length + 2 ≤
      s.taskSteps r.jobId + 10 * (s.resultQueues r.resultQueue).length) :
    s'.steps r + 2 ≤ s.steps r := by
  have work : s'.workSteps r = s.workSteps r := by
    rw [State.workSteps, State.workSteps, processes, workers]
  rw [State.steps, State.steps, queue, drain, work]
  omega

theorem fetch_advances (h : Visit cfg P tr s) (task : s.tasks j = some t) {t0 : ℚ}
    (blocked : t.getting? = some t0) (there : s.resultQueues t.request.resultQueue ≠ []) :
    Advances cfg s (.getReply j) t.request := by
  obtain ⟨m, rest, head⟩ := List.exists_cons_of_ne_nil there
  have taken : step cfg s (.getReply j) = some ({ s.setTask j (t.deliver (.item m)) with
      resultQueues := Function.update s.resultQueues t.request.resultQueue rest },
      [.fetched t.request.resultQueue m]) := by
    simp only [step, getReply, task, blocked, Option.isSome_some, if_true, head]
  have named := request_named h task
  have was : s.taskSteps t.request.jobId = t.steps := taskSteps_of_task (named ▸ task)
  have next : ({ s.setTask j (t.deliver (.item m)) with
      resultQueues := Function.update s.resultQueues t.request.resultQueue rest } : State).taskSteps
      t.request.jobId = (t.deliver (.item m)).steps := (taskSteps_update rfl _).trans (if_pos named)
  have less := Task.steps_deliver blocked m
  refine ⟨rfl, _, _, taken, steps_fetch rfl rfl rfl rfl ?_⟩
  rw [next, was, head]
  simp only [Function.update_self, List.length_cons]
  omega

private theorem worker_advances (h : Visit cfg P tr s) {w : WorkerRef} {r : Request}
    (member : r ∈ (s.processes w).backlog) :
    ∃ e r', r' ∈ requests tr ∧ e.threadOf s = none ∧ Advances cfg s e r' := by
  have mine : ∀ {r'}, r' ∈ (s.processes w).backlog → r' ∈ requests tr ∧ w < s.workers.length :=
    fun inside => by
      have told := (handled h).dispatched w _ inside
      exact ⟨dispatched_request h told, dispatched_range h told⟩
  cases current : (s.processes w).current with
  | some r' =>
    obtain ⟨known, inside⟩ := @mine r' (by simp [Process.backlog, current])
    have process : s.processes w = ⟨(s.processes w).requestQueue, some r'⟩ := by rw [← current]
    have taken : step cfg s (.workerReply w (.raised "error")) = some
        ({ (putMessage s w r' (closingMessage r' (.raised "error"))).1 with
          processes := Function.update s.processes w ⟨(s.processes w).requestQueue, none⟩ },
        [.replied w r' (closingMessage r' (.raised "error"))]) := by
      simp only [step, workerReply]
      rw [process]
      rfl
    refine ⟨.workerReply w (.raised "error"), r', known, rfl, rfl, _, _, taken,
      steps_process rfl inside rfl rfl ?_⟩
    have was : (s.processes w).stepsFor r' = 14 * (s.processes w).requestQueue.count r' + 12 := by
      rw [Process.stepsFor, current, if_pos rfl]
    have next : (⟨(s.processes w).requestQueue, none⟩ : Process).stepsFor r' =
        14 * (s.processes w).requestQueue.count r' := rfl
    rw [was, next]
    simp only [putMessage, Function.update_self, List.length_append, List.length_singleton,
      State.taskSteps]
    omega
  | none =>
    cases queue : (s.processes w).requestQueue with
    | nil => simp [Process.backlog, current, queue] at member
    | cons r' rest =>
      obtain ⟨known, inside⟩ := @mine r' (by simp [Process.backlog, current, queue])
      have process : s.processes w = ⟨r' :: rest, none⟩ := by rw [← current, ← queue]
      have taken : step cfg s (.workerTake w) = some ({ s with
          processes := Function.update s.processes w ⟨rest, some r'⟩ }, []) := by
        simp only [step, workerTake]
        rw [process]
      refine ⟨.workerTake w, r', known, rfl, rfl, _, _, taken, steps_process rfl inside rfl rfl ?_⟩
      have was : (s.processes w).stepsFor r' = 14 * (rest.count r' + 1) := by
        rw [process, Process.stepsFor, List.count_cons_self, if_neg (by simp)]
        rfl
      have next : (⟨rest, some r'⟩ : Process).stepsFor r' = 14 * rest.count r' + 12 := by
        rw [Process.stepsFor, if_pos rfl]
      rw [was, next]
      simp only [State.taskSteps]
      omega

/-- A task that waits for a reply has one, or its worker is going to send it. -/
private theorem get_advances (h : Visit cfg P tr s) (task : s.tasks j = some t) {t0 : ℚ}
    (blocked : t.getting? = some t0) : ∃ e r, r ∈ requests tr ∧ Advances cfg s e r ∧
      (e.threadOf s = none ∨ e.threadOf s = some ⟨.get, j⟩) := by
  have known : t.request ∈ requests tr := by
    rw [← Task.request_role]
    exact ((placed h).serves j t task).known
  have expects : t.expects = true := by
    cases t with
    | collector w r cb at' pc => cases pc <;> simp_all [Task.getting?, Task.expects]
    | stream r pc => cases pc <;> simp_all [Task.getting?, Task.expects]
    | clone w r pc => cases pc <;> simp_all [Task.getting?, Task.expects]
  rcases (expecting h).task j t task expects with ⟨w, member⟩ | ⟨m, member, -⟩
  · obtain ⟨e, r, known', thread, advances⟩ := worker_advances h member
    exact ⟨e, r, known', advances, .inl thread⟩
  · exact ⟨.getReply j, t.request, known, fetch_advances h task blocked (List.ne_nil_of_mem member),
      .inr rfl⟩

theorem save_advances (h : Visit cfg P tr s) {w : WorkerRef} {r : Request} {cb : OnComplete}
    {at' : ℚ} {result : SynthesisResult} {opened : Bool}
    (task : s.tasks j = some (.collector w r cb at' (.saving result opened))) :
    ∃ e, Advances cfg s e r ∧ e.threadOf s = some ⟨.save, j⟩ := by
  cases cb with
  | bridge => cases bridge_saves_nothing h j _ task
  | store k fmt dir =>
    cases audio : result.audio with
    | none =>
      have taken : step cfg s (.saveRaise j) =
          some (s.setTask j (.collector w r (.store k fmt dir) at' .saveRaised), []) := by
        simp only [step, saveRaise, task]
      have internal : (Event.saveRaise j).internal s = true := by
        simp only [Event.internal, task, audio, Option.isNone_none]
      refine ⟨.saveRaise j,
        advance_task h task rfl internal taken rfl ?_ rfl (fun _ => rfl) rfl rfl rfl, rfl⟩
      cases opened <;> simp [Task.steps, CollectPc.steps]
    | some array =>
      cases opened with
      | false =>
        have taken : step cfg s (.saveOpen j) = some
            ({ s.setTask j (.collector w r (.store k fmt dir) at' (.saving result true)) with
              files := s.files.write (audioPath dir k fmt) .partially }, []) := by
          simp only [step, saveOpen, task, audio, Option.isSome_some, if_true]
        exact ⟨.saveOpen j, advance_task h task rfl rfl taken rfl
          (by simp [Task.steps, CollectPc.steps]) rfl (fun _ => rfl) rfl rfl rfl, rfl⟩
      | true =>
        have taken : step cfg s (.saveWrite j) = some
            ({ s.setTask j (.collector w r (.store k fmt dir) at' .saved) with
              files := s.files.write (audioPath dir k fmt)
                (.complete array fmt result.sampleRate) }, []) := by
          simp only [step, saveWrite, task, audio]
        exact ⟨.saveWrite j, advance_task h task rfl rfl taken rfl
          (by simp [Task.steps, CollectPc.steps]) rfl (fun _ => rfl) rfl rfl rfl, rfl⟩

theorem awaits_known (h : Visit cfg P tr s) {c : Call} (waits : s.awaits c) :
    ∃ r ∈ requests tr, r.jobId = c.jobId := by
  rcases waits with drain | call
  · cases loop : s.drain with
    | putting item w =>
      rw [loop] at drain
      obtain rfl : (⟨.put, item.jobId⟩ : Call) = c := Option.some.inj drain
      have mine : item ∈ s.items := by simp [State.items, loop, DrainPc.item?]
      exact ⟨item.request, request_mem_requests (items_accepted h mine), rfl⟩
    | _ =>
      rw [loop] at drain
      cases drain
  · obtain ⟨k, waits, -⟩ := Option.map_eq_some_iff.mp call
    obtain ⟨t, task, -⟩ := Option.bind_eq_some_iff.mp waits
    refine ⟨t.request, ?_, request_named h task⟩
    rw [← Task.request_role]
    exact ((placed h).serves _ t task).known

/-- Once a thread has taken up what the drain loop or a task waits for, its request or another
one gets on. -/
theorem call_advances (h : Visit cfg P tr s) {c : Call} (waits : s.awaits c) :
    ∃ e r, r ∈ requests tr ∧ Advances cfg s e r ∧
      (e.threadOf s = none ∨ e.threadOf s = some c) := by
  rcases waits with drain | call
  · cases loop : s.drain with
    | putting item w =>
      rw [loop] at drain
      obtain rfl : (⟨.put, item.jobId⟩ : Call) = c := Option.some.inj drain
      have mine : item ∈ s.items := by simp [State.items, loop, DrainPc.item?]
      exact ⟨.drainPut, item.request, request_mem_requests (items_accepted h mine),
        drainPut_advances h loop, .inr (by rw [Event.threadOf, loop]; rfl)⟩
    | _ =>
      rw [loop] at drain
      cases drain
  · obtain ⟨k, j⟩ := c
    obtain ⟨k', waits, same⟩ := Option.map_eq_some_iff.mp call
    obtain ⟨t, task, call⟩ := Option.bind_eq_some_iff.mp waits
    obtain rfl : k' = k := congrArg Call.kind same
    have known : t.request ∈ requests tr := by
      rw [← Task.request_role]
      exact ((placed h).serves j t task).known
    have gets : t.getting?.isSome = true → k' = .get → ∃ e r, r ∈ requests tr ∧
        Advances cfg s e r ∧ (e.threadOf s = none ∨ e.threadOf s = some ⟨k', j⟩) := by
      rintro blocked rfl
      obtain ⟨t0, blocked⟩ := Option.isSome_iff_exists.mp blocked
      exact get_advances h task blocked
    cases t with
    | collector w r cb at' pc =>
      cases pc with
      | getting t0 => exact gets rfl (Option.some.inj call).symm
      | saving result opened =>
        obtain rfl : .save = k' := Option.some.inj call
        obtain ⟨e, advances, thread⟩ := save_advances h task
        exact ⟨e, r, known, advances, .inr thread⟩
      | _ => cases call
    | stream r pc =>
      cases pc with
      | getting w t0 => exact gets rfl (Option.some.inj call).symm
      | _ => cases call
    | clone w r pc =>
      cases pc with
      | putting =>
        obtain rfl : .put = k' := Option.some.inj call
        exact ⟨.clonePut j, r, known, clonePut_advances h task, .inr rfl⟩
      | getting t0 => exact gets rfl (Option.some.inj call).symm
      | _ => cases call

end Threads

end XttsServer.Model
