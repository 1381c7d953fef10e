import XttsServer.Guarantees.Progress
import XttsServer.Guarantees.Shutdown
import XttsServer.Runs.Chores

/-!
The server survives its workers. Whichever of them have died, what it has accepted
comes to an end by its own steps and its timeouts, and all slots are free again.
-/

set_option autoImplicit false
set_option relaxedAutoImplicit false

namespace XttsServer.Guarantees

open XttsServer.Model XttsServer.Foundations XttsServer.Foundations.Transition

variable {cfg : Config} {s s' : State} {e : Event} {tr : List Obs}

/-! ### Steps without clients and workers -/

/-- No stream handler is cancelled between its enqueue and its `try`. -/
def startedOnly (s : State) (e : Event) : Prop := cancelsUnstarted s e = false

/-- The clock goes on, or the loop, a thread or a socket does; only a wait for a worker fails, and
that by its timeout. -/
def alone (s : State) : Event → Bool
  | .tick _ => true
  | .getTimeout _ => true
  | e => e.unaided && e.internal s

private theorem alone_of_internal (unaided : e.unaided = true) (internal : e.internal s = true) :
    alone s e = true := by
  cases e <;> first | rfl | simp [alone, unaided, internal]

def aloneOnly (s : State) (e : Event) : Prop := alone s e = true

private theorem startedOnly_of_alone (h : aloneOnly s e) : startedOnly s e := by
  cases e <;> first | rfl | simp [aloneOnly, alone, Event.unaided] at h

/-- Some steps of the server alone leave it with less to do. -/
def GoesOn (cfg : Config) (tr : List Obs) (s : State) : Prop :=
  ∃ tr' s', Run (server cfg) aloneOnly s tr' s' ∧ requests tr' = [] ∧
    s'.chores (requests tr).toFinset (workerCount cfg) < s.chores (requests tr).toFinset
      (workerCount cfg)

private theorem goesOn_of_advances {r : Request} (h : Reach (server cfg) startedOnly tr s)
    (advances : Advances cfg s e r) (unaided : e.unaided = true) : GoesOn cfg tr s := by
  obtain ⟨internal, s', o, taken, -⟩ := advances
  have may := alone_of_internal unaided internal
  have meets := startedOnly_of_alone may
  have visit := visit_of_reach h
  have busy := Event.busy_of_unaided unaided
  have nothing := step_requests visit meets taken busy
  have sub : requests (tr ++ o) ⊆ requests tr := by
    rw [requests, List.filterMap_append, ← requests, ← requests, nothing, List.append_nil]
    exact List.Subset.refl _
  exact ⟨o, s', .single may taken, nothing, (step_chores visit visit meets taken sub).1 busy⟩

/-- A thread that waits for a worker gets what is there, or raises once its time has come. -/
private theorem goesOn_of_getting {j : JobId} {t : Task} {t0 : ℚ}
    (h : Reach (server cfg) startedOnly tr s) (task : s.tasks j = some t)
    (blocked : t.getting? = some t0) : GoesOn cfg tr s := by
  have visit := visit_of_reach h
  by_cases empty : s.resultQueues t.request.resultQueue = []
  · let dt := max 0 (t0 + cfg.settings.workerTimeoutSeconds - s.now)
    let later := { s with now := s.now + dt }
    have waited : (server cfg).step s (.tick dt) = some (later, []) := if_pos (le_max_left _ _)
    have due : t0 + cfg.settings.workerTimeoutSeconds ≤ later.now :=
      sub_le_iff_le_add'.mp (le_max_right _ _)
    have raises : (server cfg).step later (.getTimeout j) =
        some (later.setTask j (t.deliver .empty), []) := by
      simp only [server, step, getTimeout, later, task, blocked]
      exact if_pos ⟨empty, due⟩
    have visit' : Visit cfg startedOnly tr later := by
      simpa using visit_of_reach (h.tail (rfl : startedOnly s (.tick dt)) waited)
    have less :
        (later.setTask j (t.deliver .empty)).chores (requests tr).toFinset (workerCount cfg) <
          later.chores (requests tr).toFinset (workerCount cfg) :=
      chores_task (tracks visit') task rfl rfl (Nat.le_succ _) rfl rfl rfl
        (Task.chores_deliver blocked (by simp))
    have ticks : aloneOnly s (.tick dt) := rfl
    have times : aloneOnly later (.getTimeout j) := rfl
    exact ⟨_, _, (Run.single ticks waited).tail times raises, rfl, less⟩
  · exact goesOn_of_advances h (fetch_advances visit task blocked empty) rfl

/-! ### Any state that is not quiescent goes on -/

private theorem unaided_of_save {j : JobId} (thread : e.threadOf s = some ⟨.save, j⟩) :
    e.unaided = true := by
  cases e with
  | drainPut => cases loop : s.drain <;> simp [Event.threadOf, DrainPc.call?, loop] at thread
  | saveOpen | saveWrite | saveRaise => rfl
  | _ => simp [Event.threadOf] at thread

private theorem goesOn_of_task {j : JobId} {t : Task} (h : Reach (server cfg) startedOnly tr s)
    (task : s.tasks j = some t) (running : t.finished = false)
    (assigned : ∀ r, t ≠ .stream r .awaiting) : GoesOn cfg tr s := by
  have visit := visit_of_reach h
  by_cases free : t.call? = none
  · rcases task_advances visit task free running assigned with advances | advances
    · exact goesOn_of_advances h advances rfl
    · exact goesOn_of_advances h advances rfl
  · by_cases gets : t.getting? = none
    · cases t with
      | collector w r cb at' pc =>
        cases pc with
        | saving result opened =>
          obtain ⟨e, advances, thread⟩ := save_advances visit task
          exact goesOn_of_advances h advances (unaided_of_save thread)
        | getting => cases gets
        | _ => exact absurd rfl free
      | stream r pc =>
        cases pc with
        | getting => cases gets
        | _ => exact absurd rfl free
      | clone w r pc =>
        cases pc with
        | putting => exact goesOn_of_advances h (clonePut_advances visit task) rfl
        | getting => cases gets
        | _ => exact absurd rfl free
    · obtain ⟨t0, blocked⟩ := Option.ne_none_iff_exists'.mp gets
      exact goesOn_of_getting h task blocked

private theorem goesOn_of_busy
    (distinct : DistinctIds (start cfg.cudaOk cfg.settings.workersPerGpuList))
    (h : Reach (server cfg) startedOnly tr s) (loop : s.drain.holds = none) (busy : AllBusy s) :
    GoesOn cfg tr s := by
  obtain ⟨j, w, draining | holding⟩ :=
    owner_of_busy (noShadow_of_distinct distinct) (fun _ _ => id) (visit_of_reach h) busy
  · rw [loop] at draining
    cases draining
  · obtain ⟨t, task, running, assigned⟩ := unfinished_of_held holding
    exact goesOn_of_task h task running assigned

/-- While something is queued or in the hands of the loop, the loop goes on, or a task that holds
the worker it waits for. -/
private theorem goesOn_of_items
    (distinct : DistinctIds (start cfg.cudaOk cfg.settings.workersPerGpuList))
    (h : Reach (server cfg) startedOnly tr s) (some_item : s.items ≠ []) : GoesOn cfg tr s := by
  have visit := visit_of_reach h
  cases loop : s.drain with
  | getting =>
    obtain ⟨item, rest, queue⟩ : ∃ item rest, s.queue = item :: rest :=
      List.exists_cons_of_ne_nil (by simpa [State.items, loop, DrainPc.item?] using some_item)
    exact goesOn_of_advances h (queue_advances visit loop queue) rfl
  | waiting item notified =>
    by_cases busy : AllBusy s
    · exact goesOn_of_busy distinct h (by simp [loop]) busy
    · have woken : notified = true := by
        have awake : asleep s.drain ≠ true := fun still => busy (asleep_busy visit still)
        simpa [asleep, loop] using awake
      subst woken
      have idle : allBusy s.workers = false := by
        rwa [← Bool.not_eq_true, allBusy_iff (workers_ne_nil visit)]
      exact goesOn_of_advances h (waiting_advances loop idle) rfl
  | putting item w => exact goesOn_of_advances h (drainPut_advances visit loop) rfl
  | put item w => exact goesOn_of_advances h (put_advances visit loop) rfl
  | raised item => exact absurd loop (drain_alive visit item)

private theorem goesOn_of_not_quiescent
    (distinct : DistinctIds (start cfg.cudaOk cfg.settings.workersPerGpuList))
    (h : Reach (server cfg) startedOnly tr s) (busy : ¬ quiescent s) : GoesOn cfg tr s := by
  by_cases some_item : s.items = []
  · obtain ⟨loop, queue⟩ := List.append_eq_nil_iff.mp some_item
    have getting : s.drain = .getting := by
      cases pc : s.drain <;> simp [pc, DrainPc.item?] at loop ⊢
    obtain ⟨j, t, task, running⟩ : ∃ j t, s.tasks j = some t ∧ t.finished = false := by
      by_contra all
      refine busy ⟨queue, getting, fun j t task => ?_⟩
      by_contra running
      exact all ⟨j, t, task, by simpa using running⟩
    refine goesOn_of_task h task running fun r same => ?_
    subst same
    obtain ⟨item, member, -⟩ := awaiting_queued (visit_of_reach h) task
    rw [some_item] at member
    cases member
  · exact goesOn_of_items distinct h some_item

/-! ### In the lifespan -/

/-- What the server does alone, the application does while it runs. -/
def aloneServing (z : LifespanState) : LifespanEvent → Prop
  | .server e => aloneOnly z.server e
  | _ => False

private theorem lifespan_goes_on {z : LifespanState} {tr : List Obs} {s : State}
    (serving : z.pc = .serving) (run : Run (server cfg) aloneOnly z.server tr s) :
    ∃ tr', Run (lifespan cfg) aloneServing z tr' { z with server := s } ∧ ofServer tr' = tr := by
  induction run with
  | refl => exact ⟨[], .refl, rfl⟩
  | @tail s s' tr o e earlier meets taken ih =>
    obtain ⟨tr', run, seen⟩ := ih
    have allowed : LifespanState.allows { z with server := s } e = true := by
      cases e with
      | workerTake | workerChunk | workerReply => simp [aloneOnly, alone, Event.unaided] at meets
      | _ => simp [LifespanState.allows, serving, StopPc.managerUp]
    have kept : countTaken z.sentinels e = z.sentinels := by
      cases e with
      | workerTake => simp [aloneOnly, alone, Event.unaided] at meets
      | _ => rfl
    have taken' : (lifespan cfg).step { z with server := s } (.server e) =
        some ({ z with server := s' },
          (s.puts e).toList.map (fun p => .put p.1 p.2) ++ o.map .server) := by
      replace taken : step cfg s e = some (s', o) := taken
      have up : z.pc.managerUp = true := by rw [serving]; rfl
      simp only [lifespan, lifespanStep, serverGoesOn, allowed, if_true, taken, up, Bool.true_or,
        kept]
    have may : aloneServing { z with server := s } (.server e) := meets
    refine ⟨_, run.tail may taken', ?_⟩
    rw [ofServer_append, seen, ofServer_step]

/-- All that the server has accepted has come to its end, and nobody has a slot. -/
structure Recovered (tr : List Obs) (s : State) : Prop where
  quiet : quiescent s
  finished : ∀ r ∈ requests tr, ∃ t, s.tasks r.jobId = some t ∧ t.finished = true
  free : ∀ w ∈ s.workers, w.activeRequests = 0

private theorem recovered_of_quiescent
    (distinct : DistinctIds (start cfg.cudaOk cfg.settings.workersPerGpuList))
    (h : Reach (server cfg) startedOnly tr s) (quiet : quiescent s) : Recovered tr s := by
  have visit := visit_of_reach h
  refine ⟨quiet, fun r known => ?_, fun w member => ?_⟩
  · rcases located visit known with ⟨item, member, -⟩ | ⟨t, task, -⟩
    · obtain ⟨queue, loop, -⟩ := quiet
      simp [State.items, queue, loop, DrainPc.item?] at member
    · exact ⟨t, task, quiet.2.2 _ t task⟩
  · obtain ⟨i, found⟩ := List.getElem?_of_mem member
    by_contra busy
    have active := (books (noShadow_of_distinct distinct) visit).active i w found
    obtain ⟨j, owes⟩ := List.exists_mem_of_length_pos (active ▸ Nat.pos_of_ne_zero busy)
    exact not_owns_of_quiescent quiet j i (outstanding_owned (noShadow_of_distinct distinct)
      (fun _ _ => id) visit (Ledger.mem_atPlace.mp owes))

/-- Whatever the workers have done and however many of them have died, the application can go on
from there, with neither a client nor a worker taking a step, until all that it accepted has
ended and every slot is free: nobody waits for ever for a worker that is gone. -/
theorem recovers_without_workers
    (distinct : DistinctIds (start cfg.cudaOk cfg.settings.workersPerGpuList))
    {tr : List LifespanObs} {z : LifespanState}
    (h : Reach (lifespan cfg) (serverSteps startedOnly) tr z) (serving : z.pc = .serving) :
    ∃ tr' z', Run (lifespan cfg) aloneServing z tr' z' ∧ z'.exits = z.exits ∧
      Recovered (ofServer (tr ++ tr')) z'.server := by
  have reached := (lifespan_reaches h).1
  let known := (requests (ofServer tr)).toFinset
  obtain ⟨tr', s, run, -, quiet⟩ := exists_run_to_end (P := aloneOnly) (E := quiescent)
    (I := fun s => ∃ tr', Reach (server cfg) startedOnly tr' s ∧ (requests tr').toFinset = known)
    (fun ⟨tr', there, same⟩ busy => by
      obtain ⟨tr₁, s₁, run, nothing, less⟩ := goesOn_of_not_quiescent distinct there busy
      have more : requests (tr' ++ tr₁) = requests tr' := by
        rw [requests, List.filterMap_append, ← requests, ← requests, nothing, List.append_nil]
      exact ⟨tr₁, s₁, run, ⟨tr' ++ tr₁,
        there.trans (run.mono fun _ _ => startedOnly_of_alone), by rw [more, same]⟩, same ▸ less⟩)
    ⟨_, reached, rfl⟩
  obtain ⟨tr'', run', seen⟩ := lifespan_goes_on serving run
  refine ⟨tr'', _, run', rfl, ?_⟩
  rw [ofServer_append, seen]
  exact recovered_of_quiescent distinct
    (reached.trans (run.mono fun _ _ => startedOnly_of_alone)) quiet

instance (s : State) (e : Event) : Decidable (startedOnly s e) :=
  inferInstanceAs (Decidable (_ = false))

instance (z : LifespanState) (e : LifespanEvent) : Decidable (serverSteps startedOnly z e) :=
  match e with
  | .server e => inferInstanceAs (Decidable (startedOnly z.server e))
  | .shutdown => isTrue trivial
  | .cancelled => isTrue trivial
  | .resume => isTrue trivial
  | .putSentinel => isTrue trivial
  | .joinReturns => isTrue trivial
  | .takeSentinel _ => isTrue trivial
  | .sigterm _ => isTrue trivial
  | .dies _ => isTrue trivial

/-- The only worker dies over a job while another one is queued. -/
def workerLost : List LifespanEvent :=
  [.server (.submitTts sayHello noSpeakers "a" false), .server .resumeDrain, .server .drainPut,
    .server .resumeDrain, .server (.resume "a"), .server (.workerTake 0), .dies 0,
    .server (.submitTts sayHello noSpeakers "b" false)]

private theorem workerLost_runs : (exec (lifespan oneWorker) (serverSteps startedOnly)
    (lifespan oneWorker).init workerLost).isSome = true := by decide +kernel

theorem recovers_without_workers_lost :
    ∃ tr z, Run (lifespan oneWorker) aloneServing ((exec (lifespan oneWorker)
      (serverSteps startedOnly)
        (lifespan oneWorker).init workerLost).get workerLost_runs).1 tr z ∧
      z.exits = ((exec (lifespan oneWorker) (serverSteps startedOnly) (lifespan oneWorker).init
        workerLost).get workerLost_runs).1.exits ∧
      Recovered (ofServer (((exec (lifespan oneWorker) (serverSteps startedOnly)
        (lifespan oneWorker).init workerLost).get workerLost_runs).2 ++ tr)) z.server :=
  recovers_without_workers (by decide +kernel) (reach_of_exec workerLost_runs) (by decide +kernel)

end XttsServer.Guarantees
