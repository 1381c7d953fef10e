import XttsServer.Model.Pool
import XttsServer.Runs.Slots

/-!
The calls that the drain loop and the tasks wait for. A step submits at most one,
a thread finishes the one it runs, and nothing else changes what is waited for.
-/

set_option autoImplicit false
set_option relaxedAutoImplicit false

namespace XttsServer.Model

open XttsServer.Foundations XttsServer.Foundations.Transition

variable {cfg : Config} {P : State → Event → Prop} {s s' s₀ : State} {e : Event}
  {tr o : List Obs}

/-! ### What is waited for -/

/-- The drain loop or a task waits for the call. -/
def State.awaits (s : State) (c : Call) : Prop :=
  s.drain.call? = some c ∨ s.call? c.jobId = some c

@[simp] theorem DrainPc.call?_notify (pc : DrainPc) : pc.notify.call? = pc.call? := by
  cases pc <;> rfl

private theorem State.releases.call? {w : WorkerRef} {ms : ℚ} {j : JobId}
    {workers : List WorkerHandle}
    {drain : DrainPc} {i : Option WorkerRef} (h : s.releases w ms j workers drain i) :
    drain.call? = s.drain.call? := by
  rcases h.drain_eq with rfl | rfl <;> simp

theorem call?_of_task {j : JobId} {t : Task} (task : s.tasks j = some t) :
    s.call? j = t.call?.map (⟨·, j⟩) := by rw [State.call?, task, Option.bind_some]

private theorem call?_update {j : JobId} {t : Task}
    (tasks : s'.tasks = Function.update s.tasks j (some t)) (k : JobId) :
    s'.call? k = if k = j then t.call?.map (⟨·, j⟩) else s.call? k := by
  split_ifs with here
  · subst here
    exact call?_of_task (by rw [tasks, Function.update_self])
  · rw [State.call?, tasks, Function.update_of_ne here]
    rfl

private theorem awaits_congr (tasks : s'.tasks = s.tasks) (drain : s'.drain.call? = s.drain.call?)
    (c : Call) : s'.awaits c ↔ s.awaits c := by
  rw [State.awaits, State.awaits, State.call?, State.call?, tasks, drain]

private theorem drain_call?_ne (h : Visit cfg P tr s) {j : JobId} {t : Task}
    (task : s.tasks j = some t) (busy : t.idle = false) (k : CallKind) :
    s.drain.call? ≠ some ⟨k, j⟩ := by
  intro call
  cases loop : s.drain with
  | putting item w =>
    rw [loop] at call
    have mine : item ∈ s.items := by simp [State.items, loop, DrainPc.item?]
    have same : item.jobId = j := congrArg Call.jobId (Option.some.inj call)
    exact ((placed h).unclaimed item mine).ne_of_busy task busy same
  | _ =>
    rw [loop] at call
    cases call

/-! ### Steps and calls -/

/-- What a step that cancels nothing does to the calls. -/
inductive CallEffect (s s' : State) (e : Event) : Prop
  | quiet (thread : e.threadOf s = none) (submitted : e.submitted s' = none)
      (awaits : ∀ d, s'.awaits d ↔ s.awaits d)
  | submits {c : Call} (thread : e.threadOf s = none) (submitted : e.submitted s' = some c)
      (new : ¬ s.awaits c) (awaits : ∀ d, s'.awaits d ↔ s.awaits d ∨ d = c)
  | works {c : Call} (thread : e.threadOf s = some c) (inside : e.returns = false)
      (mine : s.awaits c) (awaits : ∀ d, s'.awaits d ↔ s.awaits d)
  | returns {c : Call} (thread : e.threadOf s = some c) (done : e.returns = true)
      (mine : s.awaits c) (awaits : ∀ d, s'.awaits d ↔ s.awaits d ∧ d ≠ c)

section Update

variable {j : JobId} {t t' : Task}

private theorem awaits_update (tasks : s'.tasks = Function.update s.tasks j (some t'))
    (drain : s'.drain.call? = s.drain.call?) (d : Call) :
    s'.awaits d ↔ s.drain.call? = some d ∨
      if d.jobId = j then t'.call? = some d.kind else s.call? d.jobId = some d := by
  rw [State.awaits, drain, call?_update tasks]
  refine or_congr_right ?_
  split_ifs with here
  · obtain ⟨k, i⟩ := d
    obtain rfl : i = j := here
    simp
  · exact Iff.rfl

private theorem awaits_of_task (task : s.tasks j = some t) (d : Call) :
    s.awaits d ↔ s.drain.call? = some d ∨
      if d.jobId = j then t.call? = some d.kind else s.call? d.jobId = some d :=
  awaits_update (by rw [← task, Function.update_eq_self]) rfl d

private theorem awaits_same (task : s.tasks j = some t)
    (tasks : s'.tasks = Function.update s.tasks j (some t')) (same : t'.call? = t.call?)
    (drain : s'.drain.call? = s.drain.call?) (d : Call) : s'.awaits d ↔ s.awaits d := by
  rw [awaits_update tasks drain, awaits_of_task task, same]

private theorem awaits_more (h : Visit cfg P tr s) (task : s.tasks j = some t)
    (busy : t.idle = false) (tasks : s'.tasks = Function.update s.tasks j (some t'))
    (drain : s'.drain.call? = s.drain.call?) (free : t.call? = none) {k : CallKind}
    (call : t'.call? = some k) :
    ¬ s.awaits ⟨k, j⟩ ∧ ∀ d, s'.awaits d ↔ s.awaits d ∨ d = ⟨k, j⟩ := by
  refine ⟨?_, fun d => ?_⟩
  · rw [awaits_of_task task]
    simp [drain_call?_ne h task busy, free]
  · rw [awaits_update tasks drain, awaits_of_task task, or_assoc]
    refine or_congr_right ?_
    obtain ⟨l, i⟩ := d
    by_cases here : i = j
    · simp [here, free, call, eq_comm]
    · simp [here]

private theorem awaits_less (h : Visit cfg P tr s) (task : s.tasks j = some t)
    (busy : t.idle = false) (tasks : s'.tasks = Function.update s.tasks j (some t'))
    (drain : s'.drain.call? = s.drain.call?) {k : CallKind} (call : t.call? = some k)
    (free : t'.call? = none) : s.awaits ⟨k, j⟩ ∧ ∀ d, s'.awaits d ↔ s.awaits d ∧ d ≠ ⟨k, j⟩ := by
  refine ⟨?_, fun d => ?_⟩
  · rw [awaits_of_task task]
    simp [call]
  · rw [awaits_update tasks drain, awaits_of_task task]
    obtain ⟨l, i⟩ := d
    by_cases here : i = j
    · subst here
      simp [drain_call?_ne h task busy, free, call, eq_comm]
    · simp [here]

end Update

private theorem Task.call?_of_getting {t : Task} {t0 : ℚ} (blocked : t.getting? = some t0) :
    t.call? = some .get := by
  cases t with
  | collector w r cb at' pc => cases pc <;> simp_all [Task.getting?, Task.call?]
  | stream r pc => cases pc <;> simp_all [Task.getting?, Task.call?]
  | clone w r pc => cases pc <;> simp_all [Task.getting?, Task.call?]

private theorem Task.call?_deliver {t : Task} {t0 : ℚ} (blocked : t.getting? = some t0)
    (outcome : GetOutcome) : (t.deliver outcome).call? = none := by
  cases t with
  | collector w r cb at' pc => cases pc <;> simp_all [Task.getting?, Task.deliver, Task.call?]
  | stream r pc => cases pc <;> simp_all [Task.getting?, Task.deliver, Task.call?]
  | clone w r pc => cases pc <;> simp_all [Task.getting?, Task.deliver, Task.call?]

private theorem CallEffect.of_update (h : Visit cfg P tr s) {j : JobId} {t t' : Task}
    (task : s.tasks j = some t) (busy : t.idle = false)
    (tasks : s'.tasks = Function.update s.tasks j (some t'))
    (drain : s'.drain.call? = s.drain.call?)
    (event : (t.call? = none ∧ e.threadOf s = none ∧ e.submitted s' = t'.call?.map (⟨·, j⟩)) ∨
      ∃ k, t.call? = some k ∧ e.threadOf s = some ⟨k, j⟩ ∧
        (e.returns = true ∧ t'.call? = none ∨ e.returns = false ∧ t'.call? = t.call?)) :
    CallEffect s s' e := by
  rcases event with ⟨free, thread, submitted⟩ | ⟨k, call, thread, ⟨done, free⟩ | ⟨inside, same⟩⟩
  · cases call : t'.call? with
    | none =>
      exact .quiet thread (by rw [submitted, call, Option.map_none])
        (awaits_same task tasks (call.trans free.symm) drain)
    | some k =>
      obtain ⟨new, awaits⟩ := awaits_more h task busy tasks drain free call
      exact .submits thread (by rw [submitted, call, Option.map_some]) new awaits
  · obtain ⟨mine, awaits⟩ := awaits_less h task busy tasks drain call free
    exact .returns thread done mine awaits
  · exact .works thread inside (.inr (by rw [call?_of_task task, call]; rfl))
      (awaits_same task tasks same drain)

private theorem Move.outside {now : ℚ} {j : JobId} {t t' : Task} {frame : Option Frame}
    (h : Move cfg now j e t t' frame) : e.submits = false ∧ e ≠ .resumeDrain := by
  cases h with
  | streamReported _ event => rcases event with rfl | ⟨d, rfl⟩ | rfl <;> exact ⟨rfl, by simp⟩
  | _ => exact ⟨rfl, by simp⟩

private theorem Leave.outside {j : JobId} {w : WorkerRef} {pc next : StreamPc}
    {frame : Option Frame}
    (h : Leave j e w pc next frame) : e.submits = false ∧ e ≠ .resumeDrain := by
  cases h <;> exact ⟨rfl, by simp⟩

private theorem Change.submitted_calls (before : Visit cfg P tr s) (change : Change cfg s₀ e s s' o)
    (handler : e.submits = true) (d : Call) : s'.awaits d ↔ s.awaits d := by
  cases change with
  | @streamQueued s request fresh =>
    have free : s.call? request.jobId = none := by
      rw [State.call?, tasks_of_fresh before (placed before) fresh]
      rfl
    rw [State.awaits, State.awaits, call?_update rfl]
    refine or_congr_right ?_
    split_ifs with here
    · rw [here, free]
      rfl
    · exact Iff.rfl
  | move _ move => simp [move.outside.1] at handler
  | leave _ left => simp [left.outside.1] at handler
  | _ => first | exact awaits_congr rfl rfl d | simp_all [Event.submits]

private theorem call?_passed {j : JobId} {t : Task}
    (tasks : s'.tasks = Function.update s.tasks j (some t)) (free : t.call? = none)
    (was : s.call? j = none) (k : JobId) : s'.call? k = s.call? k := by
  rw [call?_update tasks]
  split_ifs with here
  · rw [here, was, free]
    rfl
  · rfl

private theorem Change.drain_calls (before : Visit cfg P tr s) (change : Change cfg s₀ e s s' o)
    (event : e = .resumeDrain) (j : JobId) : s'.call? j = s.call? j := by
  cases change with
  | @handedOver item w loop =>
    rcases handedOver_cases before loop with ⟨cb, -, free, tasks⟩ | ⟨waits, tasks⟩ | ⟨-, tasks⟩
    · exact call?_passed tasks rfl (by rw [State.call?, free]; rfl) j
    · exact call?_passed tasks rfl (by rw [call?_of_task waits]; rfl) j
    · rw [State.call?, tasks]
      rfl
  | move _ move => exact absurd event move.outside.2
  | leave _ left => exact absurd event left.outside.2
  | _ => first | rfl | simp_all [Event.submits]

private theorem task_call?_of_drain (h : Visit cfg P tr s) {c : Call}
    (call : s.drain.call? = some c) :
    s.call? c.jobId = none := by
  cases loop : s.drain with
  | putting item w =>
    rw [loop] at call
    obtain rfl : (⟨.put, item.jobId⟩ : Call) = c := Option.some.inj call
    have mine : item ∈ s.items := by simp [State.items, loop, DrainPc.item?]
    have free := (placed h).unclaimed item mine
    unfold Unclaimed at free
    split_ifs at free
    · rcases free with waits | ⟨-, waits⟩ <;> exact (call?_of_task waits).trans rfl
    · rw [State.call?, free]
      rfl
  | _ =>
    rw [loop] at call
    cases call

private theorem drain_call?_of_resume (taken : resumeDrain s = some (s', o)) :
    s.drain.call? = none := by
  cases loop : s.drain with
  | putting item w => simp [resumeDrain, loop] at taken
  | _ => rfl

private theorem Event.submits_of_raises (h : e.makeQueueRaises = true) : e.submits = true := by
  cases e <;> simp_all [Event.makeQueueRaises, Event.submits]

private theorem Change.calls (h : Visit cfg P tr s) (change : Change cfg s e s s' o)
    (handler : e.submits = false) (other : e ≠ .resumeDrain) (uncancelled : e.cancelled = none) :
    CallEffect s s' e := by
  cases change with
  | drawn _ submits | jobQueued _ _ submits | jobTurnedAway _ _ _ submits
  | batchRefused _ _ _ submits | bridgeQueued _ _ submits | streamQueued _ _ _ submits
  | requestRefused _ _ submits | answered _ _ submits =>
    rw [handler] at submits
    cases submits
  | jobRaised _ raises =>
    have submits := Event.submits_of_raises raises
    rw [handler] at submits
    cases submits
  | drainWaits _ _ event | drainRaises _ _ event | drainDispatches event | handedOver _ event =>
    exact absurd event other
  | cancelAwaiting event | cancelAssigned event =>
    subst event
    cases uncancelled
  | @cloneStart j wavPath w event fresh =>
    subst event
    have free : s.call? j = none := by
      rw [State.call?, tasks_of_fresh h (placed h) fresh]
      rfl
    have apart : ∀ k, s.drain.call? ≠ some ⟨k, j⟩ := fun k call => by
      cases loop : s.drain with
      | putting item v =>
        rw [loop] at call
        have mine : item ∈ s.items := by simp [State.items, loop, DrainPc.item?]
        have same : item.jobId = j := congrArg Call.jobId (Option.some.inj call)
        exact fresh.2 (same ▸ items_used h mine)
      | _ =>
        rw [loop] at call
        cases call
    refine @CallEffect.submits _ _ _ ⟨.put, j⟩ rfl ((call?_update rfl j).trans (if_pos rfl)) ?_
      fun d => ?_
    · rw [State.awaits, free]
      simp [apart]
    · rw [State.awaits, State.awaits, or_assoc, call?_update rfl]
      refine or_congr_right ?_
      split_ifs with here
      · obtain ⟨k, i⟩ := d
        obtain rfl : i = j := here
        simp [free, Task.call?, eq_comm]
      · refine ⟨.inl, fun found => found.resolve_right ?_⟩
        rintro rfl
        exact here rfl
  | @cloneRaises j wavPath fresh picked event =>
    subst event
    refine .quiet rfl ?_ (awaits_congr rfl rfl)
    have free := tasks_of_fresh h (placed h) fresh
    simp [Event.submitted, State.call?, free]
  | clonePut task event =>
    subst event
    exact .of_update h task rfl rfl rfl (.inr ⟨.put, rfl, rfl, .inl ⟨rfl, rfl⟩⟩)
  | @drainPut item w loop event =>
    subst event
    have call : s.drain.call? = some ⟨.put, item.jobId⟩ := by rw [loop]; rfl
    refine .returns call rfl (.inl call) fun d => ?_
    have new := task_call?_of_drain h call
    have kept : ∀ k, ({ s with
          processes := Function.update s.processes w
            { s.processes w with requestQueue := (s.processes w).requestQueue ++ [item.request] }
          drain := .put item w } : State).call? k = s.call? k := fun _ => rfl
    rw [State.awaits, State.awaits, kept, call]
    constructor
    · rintro (none | there)
      · cases none
      · refine ⟨.inr there, ?_⟩
        rintro rfl
        rw [new] at there
        cases there
    · rintro ⟨mine | there, apart⟩
      · exact absurd (Option.some.inj mine).symm apart
      · exact .inr there
  | @move j t t' frame task move =>
    have loop_event : ∀ {s' : State}, s'.tasks = Function.update s.tasks j (some t') →
        s'.call? j = t'.call?.map (⟨·, j⟩) := fun tasks => by rw [call?_update tasks, if_pos rfl]
    cases move with
    | timeout blocked | error blocked =>
      exact .of_update h task (Task.busy_of_getting blocked) rfl rfl (.inr ⟨.get,
        Task.call?_of_getting blocked, rfl, .inl ⟨rfl, Task.call?_deliver blocked _⟩⟩)
    | saveRaise => exact .of_update h task rfl rfl rfl (.inr ⟨.save, rfl, rfl, .inl ⟨rfl, rfl⟩⟩)
    | streamReported _ event =>
      rcases event with rfl | ⟨d, rfl⟩ | rfl
      · exact .of_update h task rfl rfl rfl (.inl ⟨rfl, rfl, loop_event rfl⟩)
      · exact .of_update h task rfl rfl rfl (.inl ⟨rfl, rfl, rfl⟩)
      · cases uncancelled
    | _ => exact .of_update h task rfl rfl rfl (.inl ⟨rfl, rfl, loop_event rfl⟩)
  | getReply task blocked head event =>
    subst event
    exact .of_update h task (Task.busy_of_getting blocked) rfl rfl (.inr ⟨.get,
      Task.call?_of_getting blocked, rfl, .inl ⟨rfl, Task.call?_deliver blocked _⟩⟩)
  | collected event task _ slot =>
    subst event
    exact .of_update h task rfl rfl slot.call? (.inl
      ⟨rfl, rfl, call?_of_task (Function.update_self ..)⟩)
  | @leave j r w pc next frame workers drain i task left slot =>
    have idle : (Task.stream r pc).idle = false := left.busy
    cases left with
    | cancelGetting | cancelGot | cancelSending | cancelClosing => cases uncancelled
    | sendFails after | closeFails after =>
      rcases after with rfl | rfl <;>
        exact .of_update h task idle rfl slot.call? (.inl ⟨rfl, rfl, rfl⟩)
    | _ =>
      exact .of_update h task idle rfl slot.call?
        (.inl ⟨rfl, rfl, call?_of_task (Function.update_self ..)⟩)
  | cloneDone event task slot =>
    subst event
    exact .of_update h task rfl rfl slot.call? (.inl
      ⟨rfl, rfl, call?_of_task (Function.update_self ..)⟩)
  | saveOpen task _ event =>
    subst event
    exact .of_update h task rfl rfl rfl (.inr ⟨.save, rfl, rfl, .inr ⟨rfl, rfl⟩⟩)
  | saveWrite task _ event =>
    subst event
    exact .of_update h task rfl rfl rfl (.inr ⟨.save, rfl, rfl, .inl ⟨rfl, rfl⟩⟩)
  | saved task event =>
    subst event
    exact .of_update h task rfl rfl rfl (.inl ⟨rfl, rfl, call?_of_task (Function.update_self ..)⟩)
  | tick _ event | workerTake _ event | workerChunk event | workerReply event | getAudio event
  | openFile _ _ event | vanished _ _ event | deleteAfterSend _ event | evict event =>
    subst event
    exact .quiet rfl rfl (awaits_congr rfl rfl)

theorem step_calls (h : Reach (server cfg) P tr s) (meets : P s e)
    (taken : step cfg s e = some (s', o)) (uncancelled : e.cancelled = none) :
    CallEffect s s' e := by
  have visit := visit_of_reach h
  have chain : Chain (Allowed cfg P) s o s' :=
    (step_changes taken).mono fun _ _ _ change => ⟨s, e, meets, change⟩
  by_cases handler : e.submits = true
  · refine .quiet ?_ ?_ fun d => ?_
    · cases e <;> first | rfl | cases handler
    · cases e <;> first | rfl | cases handler
    · refine visit.keeps_along (I := fun a => a.awaits d ↔ s.awaits d) (step_changes taken)
        (fun _ _ _ change => ⟨s, e, meets, change⟩) Iff.rfl fun there change same => ?_
      exact (change.submitted_calls there handler d).trans same
  by_cases loop : e = .resumeDrain
  · subst loop
    have idle := drain_call?_of_resume taken
    have same : ∀ j, s'.call? j = s.call? j := fun j => by
      refine visit.keeps_along (I := fun a => a.call? j = s.call? j) (step_changes taken)
        (fun _ _ _ change => ⟨s, .resumeDrain, meets, change⟩) rfl fun there change same => ?_
      exact (change.drain_calls there rfl j).trans same
    cases call : s'.drain.call? with
    | none => exact .quiet rfl call fun d => by rw [State.awaits, State.awaits, call, idle, same]
    | some c =>
      have new := (same c.jobId).symm.trans (task_call?_of_drain (visit.trans chain) call)
      refine .submits rfl call ?_ fun d => ?_
      · rw [State.awaits, idle, new]
        simp
      · rw [State.awaits, State.awaits, call, idle, same]
        simp [or_comm, eq_comm]
  exact (step_change taken (by simpa using handler) loop).calls visit (by simpa using handler) loop
    uncancelled

end XttsServer.Model
