import XttsServer.Runs.Placement

/-!
The slots of the workers and their owners. Every change takes one slot, gives one
back, loses the owner of one, or leaves slots and owners alone.
-/

set_option autoImplicit false
set_option relaxedAutoImplicit false

namespace XttsServer.Model

open XttsServer.Foundations XttsServer.Foundations.Transition

variable {cfg : Config} {P : State → Event → Prop} {s s' s₀ : State} {e : Event}
  {tr o : List Obs}

/-! ### Owners -/

def StreamPc.holds : StreamPc → Option WorkerRef
  | .assigned w => some w
  | .getting w _ => some w
  | .got w _ => some w
  | .sending w _ => some w
  | .closing w _ => some w
  | _ => none

def CollectPc.holds : CollectPc → Bool
  | .ready => true
  | .getting _ => true
  | .got _ _ => true
  | _ => false

def ClonePc.holds : ClonePc → Bool
  | .ended => false
  | _ => true

/-- The worker whose slot the task has yet to release. -/
def Task.holds : Task → Option WorkerRef
  | .collector w _ _ _ pc => if pc.holds then some w else none
  | .stream _ pc => pc.holds
  | .clone w _ pc => if pc.holds then some w else none

def held (tasks : JobId → Option Task) (j : JobId) : Option WorkerRef := (tasks j).bind Task.holds

/-- The slot taken by the dispatch that the drain loop is in. -/
def DrainPc.holds (pc : DrainPc) : Option (JobId × WorkerRef) :=
  pc.dispatching?.map fun p => (p.1.jobId, p.2)

@[simp] theorem DrainPc.holds_getting : DrainPc.getting.holds = none := rfl

@[simp] theorem DrainPc.holds_waiting (item : QueuedItem) (notified : Bool) :
    (DrainPc.waiting item notified).holds = none := rfl

@[simp] theorem DrainPc.holds_raised (item : QueuedItem) : (DrainPc.raised item).holds = none := rfl

@[simp] theorem DrainPc.holds_putting (item : QueuedItem) (w : WorkerRef) :
    (DrainPc.putting item w).holds = some (item.jobId, w) := rfl

@[simp] theorem DrainPc.holds_put (item : QueuedItem) (w : WorkerRef) :
    (DrainPc.put item w).holds = some (item.jobId, w) := rfl

private theorem State.atHand.holds {s : State} {item : QueuedItem} {rest : List QueuedItem}
    (h : s.atHand item rest) : s.drain.holds = none := by
  rw [DrainPc.holds, h.dispatching?]
  rfl

/-- The drain loop or a task will release the slot of `w` for the request `j`. -/
def Owns (s : State) (j : JobId) (w : WorkerRef) : Prop :=
  s.drain.holds = some (j, w) ∨ held s.tasks j = some w

private theorem held_update (tasks : JobId → Option Task) (j k : JobId) (t : Task) :
    held (Function.update tasks j (some t)) k = if k = j then t.holds else held tasks k := by
  unfold held
  by_cases same : k = j
  · subst same
    simp
  · simp [same]

private theorem held_of_idle {tasks : JobId → Option Task} {j : JobId} {t : Task}
    (task : tasks j = some t) (idle : t.idle = true) : held tasks j = none := by
  cases t with
  | stream r pc => cases pc <;> simp_all [held, Task.idle, Task.holds, StreamPc.holds]
  | _ => cases idle

private theorem Unclaimed.held {gone : Prop} {tasks : JobId → Option Task} {item : QueuedItem}
    (h : Unclaimed gone tasks item) : held tasks item.jobId = none := by
  unfold Unclaimed at h
  split_ifs at h
  · rcases h with h | ⟨-, h⟩ <;> exact held_of_idle h rfl
  · simp [Model.held, h]

private theorem Task.holds_deliver {t : Task} {t0 : ℚ} (blocked : t.getting? = some t0)
    (outcome : GetOutcome) : (t.deliver outcome).holds = t.holds := by
  cases t with
  | collector w r cb at' pc =>
    cases pc <;> simp_all [Task.getting?, Task.deliver, Task.holds, CollectPc.holds]
  | stream r pc => cases pc <;> simp_all [Task.getting?, Task.deliver, Task.holds, StreamPc.holds]
  | clone w r pc => cases pc <;> simp_all [Task.getting?, Task.deliver, Task.holds, ClonePc.holds]

private theorem Move.holds {now : ℚ} {j : JobId} {t t' : Task} {frame : Option Frame}
    (h : Move cfg now j e t t' frame) : t'.holds = t.holds := by
  cases h with
  | timeout blocked => exact Task.holds_deliver blocked _
  | error blocked => exact Task.holds_deliver blocked _
  | _ => rfl

theorem Leave.holds {j : JobId} {w : WorkerRef} {pc next : StreamPc} {frame : Option Frame}
    (h : Leave j e w pc next frame) : pc.holds = some w ∧ next.holds = none := by
  cases h with
  | sendFails after => rcases after with rfl | rfl <;> exact ⟨rfl, rfl⟩
  | closeFails after => rcases after with rfl | rfl <;> exact ⟨rfl, rfl⟩
  | _ => exact ⟨rfl, rfl⟩

theorem onComplete_holds {cb : OnComplete} {w : WorkerRef} {result : SynthesisResult} {ms : ℚ}
    {effect : Effect} {next : CollectPc} (h : onComplete s cb w result ms = (effect, next)) :
    next.holds = false := by
  have same : (onComplete s cb w result ms).2 = next := by rw [h]
  rw [← same]
  unfold onComplete
  split
  · rfl
  · dsimp only
    split
    · split_ifs <;> rfl
    · rfl

/-! ### What a change does to slots and owners -/

inductive SlotChange (s₀ s s' : State) (e : Event) (o : List Obs) : Prop
  | same (workers : s'.workers = s.workers) (log : slotLog o = [])
      (owns : ∀ k v, Owns s' k v ↔ Owns s k v)
  | takes {r : Request} {w : WorkerRef} (told : .dispatched r w ∈ o)
      (workers : s'.workers = s.workers.modify w fun h => h.acquire r.jobId s.now)
      (log : slotLog o = [.take r.jobId w]) (free : held s.tasks r.jobId = none)
      (new : r.jobId ∉ s.used ∨ ∃ item ∈ s.undispatched, item.request = r)
      (owns : ∀ k v, Owns s' k v ↔ Owns s k v ∨ (k, v) = (r.jobId, w))
  | gives {j : JobId} {w : WorkerRef} {ms : ℚ} {i : Option WorkerRef}
      (owned : held s.tasks j = some w) (slot : s.releases w ms j s'.workers s'.drain i)
      (log : slotLog o = i.toList.map (.give j)) (owns : ∀ k v, Owns s' k v ↔ Owns s k v ∧ k ≠ j)
  | drops {j : JobId} {w : WorkerRef} (owned : Owns s j w) (workers : s'.workers = s.workers)
      (log : slotLog o = []) (owns : ∀ k v, Owns s' k v ↔ Owns s k v ∧ k ≠ j)
      (cause : (∃ r, e = .cancelStream j ∧ s = s₀ ∧ s.tasks j = some (.stream r (.assigned w))) ∨
        ∃ item, s.drain = .put item w ∧ item.jobId = j ∧
          s.tasks j = some (.stream item.request .ended))

private theorem owns_congr (drain : s'.drain.holds = s.drain.holds)
    (tasks : held s'.tasks = held s.tasks) (k : JobId) (v : WorkerRef) :
    Owns s' k v ↔ Owns s k v := by
  rw [Owns, Owns, drain, tasks]

private theorem held_update_same {tasks : JobId → Option Task} {j : JobId} {t t' : Task}
    (task : tasks j = some t) (holds : t'.holds = t.holds) :
    held (Function.update tasks j (some t')) = held tasks := by
  funext k
  rw [held_update]
  split_ifs with same
  · rw [same, held, task, Option.bind_some, holds]
  · rfl

private theorem held_of_drain (h : Visit cfg P tr s) {j : JobId} {w : WorkerRef}
    (loop : s.drain.holds = some (j, w)) : held s.tasks j = none := by
  obtain ⟨p, here, same⟩ := Option.map_eq_some_iff.mp loop
  have mine : p.1 ∈ s.items := by
    rw [s.items_eq, here]
    simp
  have free := ((placed h).unclaimed _ mine).held
  rwa [(Prod.mk.inj same).1] at free

private theorem owns_release (h : Visit cfg P tr s) {j : JobId} {w : WorkerRef} {t' : Task}
    (owned : held s.tasks j = some w) (empty : t'.holds = none)
    (drain : s'.drain.holds = s.drain.holds)
    (tasks : s'.tasks = Function.update s.tasks j (some t')) (k : JobId) (v : WorkerRef) :
    Owns s' k v ↔ Owns s k v ∧ k ≠ j := by
  rw [Owns, Owns, drain, tasks, held_update]
  by_cases same : k = j
  · subst same
    have other : s.drain.holds ≠ some (k, v) := fun loop => by
      rw [held_of_drain h loop] at owned
      cases owned
    simp [empty, other]
  · simp [same]

variable {item : QueuedItem} {w : WorkerRef}

private theorem owns_passed (h : Visit cfg P tr s) (loop : s.drain = .put item w) {t : Task}
    (holds : t.holds = some w) (drain : s'.drain = .getting)
    (tasks : s'.tasks = Function.update s.tasks item.jobId (some t)) (k : JobId) (v : WorkerRef) :
    Owns s' k v ↔ Owns s k v := by
  have free := (proper_of_put h loop).2.held
  have holding : s.drain.holds = some (item.jobId, w) := by simp [loop]
  rw [Owns, Owns, drain, tasks, held_update, holding]
  by_cases here : k = item.jobId
  · subst here
    simp [holds, free]
  · have there : ¬ item.jobId = k := fun same => here same.symm
    simp [here, there]

private theorem owns_dropped (h : Visit cfg P tr s) (loop : s.drain = .put item w)
    (drain : s'.drain = .getting) (tasks : s'.tasks = s.tasks) (k : JobId) (v : WorkerRef) :
    Owns s' k v ↔ Owns s k v ∧ k ≠ item.jobId := by
  have free := (proper_of_put h loop).2.held
  have holding : s.drain.holds = some (item.jobId, w) := by simp [loop]
  rw [Owns, Owns, drain, tasks, holding]
  by_cases here : k = item.jobId
  · subst here
    simp [free]
  · have there : ¬ item.jobId = k := fun same => here same.symm
    simp [here, there]

private theorem State.releases.holds {w : WorkerRef} {ms : ℚ} {j : JobId}
    {workers : List WorkerHandle}
    {drain : DrainPc} {i : Option WorkerRef} (h : s.releases w ms j workers drain i) :
    drain.holds = s.drain.holds := by
  rw [DrainPc.holds, DrainPc.holds, h.dispatching?]

private theorem slotLog_released (i : Option WorkerRef) (j : JobId) :
    slotLog (i.toList.map (.released j)) = i.toList.map (.give j) := by
  cases i <;> rfl

theorem Change.slots (before : Visit cfg P tr s) (change : Change cfg s₀ e s s' o) :
    SlotChange s₀ s s' e o := by
  cases change with
  | jobTurnedAway _ _ told =>
    rcases told with rfl | rfl <;> exact .same rfl (by simp) fun _ _ => Iff.rfl
  | @answered _ a answer =>
    refine .same rfl ?_ fun _ _ => Iff.rfl
    cases a <;> simp [Obs.isAnswer] at answer ⊢
  | @streamQueued s request fresh =>
    refine .same rfl (by simp) (owns_congr rfl ?_)
    funext k
    rw [held_update]
    split_ifs with here
    · rw [here, held, tasks_of_fresh before (placed before) fresh]
      rfl
    · rfl
  | @cloneStart j wavPath w _ fresh picked =>
    have free : held s.tasks j = none := by
      rw [held, tasks_of_fresh before (placed before) fresh]
      rfl
    refine @SlotChange.takes _ _ _ _ _ (.computeLatents ⟨j, wavPath, s.nextQueue⟩) w (by simp) rfl
      (by simp) free (.inl fresh.2) fun k v => ?_
    rw [Owns, Owns, held_update]
    by_cases here : k = j
    · subst here
      simp [Request.jobId, free, Task.holds, ClonePc.holds, eq_comm]
    · simp [here, Request.jobId]
  | drainWaits hand => exact .same rfl (by simp) (owns_congr (by simp [hand.holds]) rfl)
  | drainRaises hand => exact .same rfl (by simp) (owns_congr (by simp [hand.holds]) rfl)
  | @drainDispatches s item rest w _ _ hand same free picked =>
    have mine : item ∈ s.items := hand.items ▸ List.mem_cons_self
    have waiting : item ∈ s.undispatched := hand.undispatched ▸ List.mem_cons_self
    refine .takes List.mem_cons_self rfl (by simp) ((placed before).unclaimed item mine).held
      (.inr ⟨item, waiting, rfl⟩) fun k v => ?_
    rw [Owns, Owns, hand.holds]
    simp [QueuedItem.jobId, eq_comm, or_comm]
  | drainPut loop => exact .same rfl (by simp) (owns_congr (by simp [loop]) rfl)
  | @handedOver item w loop =>
    rcases handedOver_cases before loop with ⟨cb, -, -, tasks⟩ | ⟨-, tasks⟩ | ⟨dead, tasks⟩
    · exact .same rfl (by simp) (owns_passed before loop rfl rfl tasks)
    · exact .same rfl (by simp) (owns_passed before loop rfl rfl tasks)
    · exact .drops (.inl (by simp [loop])) rfl (by simp) (owns_dropped before loop rfl tasks)
        (.inr ⟨item, loop, rfl, dead⟩)
  | clonePut task => exact .same rfl (by simp) (owns_congr rfl (held_update_same task rfl))
  | move task move =>
    exact .same rfl (by simp [Function.comp_def])
      (owns_congr rfl (held_update_same task move.holds))
  | getReply task blocked =>
    exact .same rfl (by simp) (owns_congr rfl (held_update_same task
      (Task.holds_deliver blocked _)))
  | @collected j w r cb t t0 outcome result workers drain i next jobs futures statuses _ task
      _ slot call =>
    have named : r.jobId = j := ((placed before).serves j _ task).named
    have empty : (Task.collector w r cb t next).holds = none := by
      simp [Task.holds, onComplete_holds call]
    subst named
    have owned : held s.tasks r.jobId = some w := by simp [held, task, Task.holds, CollectPc.holds]
    refine .gives owned slot ?_ (owns_release before owned empty slot.holds rfl)
    cases i <;> simp [Function.comp_def]
  | @leave j r w pc next frame workers drain i task left slot =>
    have owned : held s.tasks j = some w := by simp [held, task, Task.holds, left.holds.1]
    have empty : (Task.stream r next).holds = none := left.holds.2
    refine .gives owned slot ?_ (owns_release before owned empty slot.holds rfl)
    cases i <;> simp [Function.comp_def]
  | @cloneDone j w r outcome workers drain i _ task slot =>
    have owned : held s.tasks j = some w := by simp [held, task, Task.holds, ClonePc.holds]
    exact .gives owned slot (slotLog_released i j) (owns_release before owned rfl slot.holds rfl)
  | cancelAwaiting _ task => exact .same rfl (by simp) (owns_congr rfl (held_update_same task rfl))
  | @cancelAssigned j r w event task =>
    have owned : held s.tasks j = some w := by simp [held, task, Task.holds, StreamPc.holds]
    exact .drops (.inr owned) rfl (by simp) (owns_release before owned rfl rfl rfl)
      (.inl ⟨r, event, rfl, task⟩)
  | saveOpen task => exact .same rfl (by simp) (owns_congr rfl (held_update_same task rfl))
  | saveWrite task => exact .same rfl (by simp) (owns_congr rfl (held_update_same task rfl))
  | saved task =>
    exact .same rfl (by simp [marks_eq_map, Function.comp_def])
      (owns_congr rfl (held_update_same task rfl))
  | _ => exact .same rfl (by simp [Function.comp_def]) fun _ _ => Iff.rfl

end XttsServer.Model
