import Mathlib.Tactic.Linarith
import XttsServer.Foundations.Liveness
import XttsServer.Guarantees.Slots
import XttsServer.Runs.Records
import XttsServer.Runs.Shutdown

/-!
What a shutdown does to the requests that the server has accepted, and to its workers.
-/

set_option autoImplicit false
set_option relaxedAutoImplicit false

namespace XttsServer.Guarantees

open XttsServer.Model
open XttsServer.Foundations.Transition

variable {cfg : Config} {P : LifespanState → LifespanEvent → Prop} {z z' : LifespanState}
  {e : LifespanEvent} {tr tr' o : List LifespanObs}

/-! ### What was put before the sentinel is answered -/

/-- The worker has closed exactly the requests that were put on its queue before the sentinel, in
the order of the puts, and each once. -/
def ServedOut (w : WorkerRef) (tr : List LifespanObs) : Prop :=
  ∃ before after, tr = before ++ .sentinel w :: after ∧ .sentinel w ∉ before ++ after ∧
    closedBy w tr = putTo w before ∧ (putTo w tr).Nodup

private theorem servedOut_of_exited (h : Reach (lifespan cfg) P tr z) {w : WorkerRef}
    (exited : .exited w .sentinel ∈ tr) : ServedOut w tr := by
  obtain ⟨none_left, idle⟩ := served_all h (exits_of_exited h exited)
  cases queue_served h w with
  | unsent unsent => simp [unsent] at none_left
  | @sent n before after sent split once bound order behind =>
    obtain rfl : n = 0 := by
      rw [none_left] at sent
      exact (Option.some.inj sent).symm
    refine ⟨before, after, split, by simp [once], ?_, putTo_nodup h w⟩
    simpa [idle] using order.symm

/-- Every worker serves its queue in the order of the puts, up to the sentinel and no further,
whenever it dies; one that leaves its loop by itself has answered all that was put before it. -/
theorem exit_serves_queue (h : Reach (lifespan cfg) anyStep tr z) :
    (∀ w, QueueServed z w tr) ∧ ∀ w, .exited w .sentinel ∈ tr → ServedOut w tr :=
  ⟨queue_served h, fun _ => servedOut_of_exited h⟩

/-- A stop that finds one job on the queue of a worker and another one waiting. -/
def busyStop : List LifespanEvent :=
  [.server (.submitTts sayHello noSpeakers "a" false),
    .server (.submitTts sayHello noSpeakers "b" false), .server .resumeDrain, .server .drainPut,
    .server .resumeDrain, .server (.workerTake 0), .shutdown, .cancelled]

/-- The rest of it: the worker answers, and exits in time. -/
def quietEnd : List LifespanEvent :=
  [.resume, .resume, .putSentinel, .resume, .server (.workerReply 0 (.raised "no")),
    .takeSentinel 0, .joinReturns, .resume, .resume]

def lifespanRun (events : List LifespanEvent) : Option (LifespanState × List LifespanObs) :=
  exec (lifespan oneWorker) anyStep (lifespan oneWorker).init events

private theorem busyStop_runs : (lifespanRun busyStop).isSome = true := by decide +kernel

private theorem wholeStop_runs : (lifespanRun (busyStop ++ quietEnd)).isSome = true := by
  decide +kernel

theorem exit_serves_queue_one_job :
    QueueServed ((lifespanRun busyStop).get busyStop_runs).1 0
        ((lifespanRun busyStop).get busyStop_runs).2 ∧
      ServedOut 0 ((lifespanRun (busyStop ++ quietEnd)).get wholeStop_runs).2 :=
  ⟨(exit_serves_queue (reach_of_exec busyStop_runs)).1 0,
    (exit_serves_queue (reach_of_exec wholeStop_runs)).2 0 (by decide +kernel)⟩

/-! ### Nothing leaves the queue after the cancellation -/

def stopped : StopPc → Bool
  | .serving => false
  | .cancelling => false
  | .raised => false
  | _ => true

private theorem stopped_step (change : LifespanChange cfg z e z' o)
    (ended : stopped z.pc = true ∨ .cancelled ∈ o) : stopped z'.pc = true := by
  cases change with
  | server => exact ended.resolve_right (by simp)
  | shutdown pc | raised pc => simp [pc, stopped] at ended
  | takeSentinel | sigterm | dies => exact ended.resolve_right (by simp)
  | _ => rfl

private theorem stopped_of_cancelled (h : Reach (lifespan cfg) P tr z) (told : .cancelled ∈ tr) :
    stopped z.pc = true := by
  induction h with
  | refl => cases told
  | tail before meets taken ih =>
    exact stopped_step (lifespan_change before taken) ((List.mem_append.mp told).imp_left ih)

private theorem step_drained {s s' : State} {event : Event} {o : List Obs}
    (taken : step cfg s event = some (s', o)) (other : event ≠ .resumeDrain) : drained o = [] := by
  have changes := step_changes taken
  clear taken
  induction changes with
  | refl => rfl
  | @tail s s' tr o _ change ih =>
    have silent : drained o = [] := by
      cases change with
      | drainDispatches resumes => exact absurd resumes other
      | jobTurnedAway _ _ told => rcases told with rfl | rfl <;> rfl
      | @answered _ a answer => cases a <;> simp [Obs.isAnswer] at answer ⊢
      | _ => simp [marks_eq_map, Function.comp_def]
    rw [drained, List.filterMap_append, ← drained, ← drained, ih, silent, List.nil_append]

private theorem drained_of_stopped (before : Reach (lifespan cfg) P tr z)
    (later : Run (lifespan cfg) P z tr' z') (ended : stopped z.pc = true) :
    stopped z'.pc = true ∧ drained (ofServer tr') = [] := by
  induction later with
  | refl => exact ⟨ended, rfl⟩
  | @tail y y' tr' o e earlier meets taken ih =>
    have change := lifespan_change (before.trans earlier) taken
    refine ⟨stopped_step change (.inl ih.1), ?_⟩
    rw [ofServer_append, drained, List.filterMap_append, ← drained, ← drained, ih.2,
      List.nil_append]
    rcases change.seen with ⟨-, silent⟩ | ⟨event, rfl, moves⟩
    · rw [silent]
      rfl
    · refine step_drained moves fun resumes => ?_
      subst resumes
      cases change with
      | server allowed =>
        have serving : y.pc = .serving := by simpa [LifespanState.allows] using allowed
        simp [serving, stopped] at ih

private theorem completed_drained {s : State} {tr : List Obs} (h : Visit cfg anyStep tr s)
    {cb : OnComplete} {w : WorkerRef} {result : SynthesisResult}
    (told : .completed cb w result ∈ tr) :
    ∃ item, .drained item w ∈ tr ∧ item.onComplete = some cb := by
  obtain ⟨before, a, b, o, after, there, ⟨s₀, e, -, change⟩, told', -, parts⟩ :=
    h.exists_change told
  have early : before ⊆ tr := fun x hx => by
    rw [parts]
    exact List.mem_append_left _ (List.mem_append_left _ hx)
  cases change with
  | @collected j w' r cb' t t0 outcome result' workers drain i next _ _ statuses _ task =>
    obtain ⟨rfl, rfl, -⟩ : cb = cb' ∧ w = w' ∧ result = result' := by simpa using told'
    obtain ⟨item, drained, -, callback⟩ := ((placed there).serves j _ task).origin
    exact ⟨item, early drained, callback⟩
  | jobTurnedAway _ _ told => rcases told with rfl | rfl <;> simp at told'
  | @answered _ a answer => cases a <;> simp [Obs.isAnswer] at answer told'
  | _ => simp [marks_eq_map] at told'

/-- What the run `tr'`, from the cancellation of the drain loop to the state `z'`, has done to the
requests that were accepted, in it or in `tr` before it. -/
structure WaitingDropped (tr tr' : List LifespanObs) (z' : LifespanState) : Prop where
  silent : drained (ofServer tr') = []
  order : accepted (ofServer (tr ++ tr')) =
    (drained (ofServer tr)).map Prod.fst ++ z'.server.undispatched
  undispatched : ∀ item ∈ z'.server.undispatched, ∀ w,
    .server (.dispatched item.request w) ∉ tr ++ tr'
  unanswered : ∀ item ∈ z'.server.undispatched, ∀ w m,
    .server (.replied w item.request m) ∉ tr ++ tr'
  uncompleted : ∀ item ∈ z'.server.undispatched, ∀ cb w result, item.onComplete = some cb →
    .server (.completed cb w result) ∉ tr ++ tr'

/-- Once the drain loop has seen its cancellation nothing is dispatched from the queue any more:
what was accepted and not drained by then stays where it is, and is never sent to a worker, answered
or completed. -/
theorem waiting_requests_dropped (before : Reach (lifespan cfg) anyStep tr z)
    (stop : .cancelled ∈ tr) (later : Run (lifespan cfg) anyStep z tr' z') :
    WaitingDropped tr tr' z' := by
  have silent := (drained_of_stopped before later (stopped_of_cancelled before stop)).2
  have visit := lifespan_visits (before.trans later)
  have order := flow visit
  rw [ofServer_append, drained, List.filterMap_append, ← drained, ← drained, silent,
    List.append_nil, ← ofServer_append] at order
  have undispatched : ∀ item ∈ z'.server.undispatched, ∀ w,
      .dispatched item.request w ∉ ofServer (tr ++ tr') := fun item waits w told =>
    not_taken visit (.inr ⟨item, waits, rfl⟩)
      (List.mem_map.mpr ⟨_, mem_taken.mpr ⟨_, told, rfl⟩, rfl⟩)
  refine ⟨silent, order, fun item waits w told => undispatched item waits w (mem_ofServer.mpr told),
    fun item waits w m told => ?_, ?_⟩
  · exact undispatched item waits w ((handled visit).replied w _ m (mem_ofServer.mpr told)).1
  · intro item waits cb w result callback told
    obtain ⟨item', drained', callback'⟩ := completed_drained visit (mem_ofServer.mpr told)
    have kind := proper_of_accepted visit (undispatched_accepted visit waits)
    have kind' := proper_of_accepted visit (drained_accepted visit drained')
    have same : item'.jobId = item.jobId := by
      have own : ∀ {i : QueuedItem}, i.Proper cfg → i.onComplete = some cb →
          cb.jobId = i.jobId := by
        rintro i (⟨rfl | ⟨fmt, rfl⟩⟩ | _) made
        · obtain rfl := Option.some.inj made
          rfl
        · obtain rfl := Option.some.inj made
          rfl
        · cases made
      exact (own kind' callback').symm.trans (own kind callback)
    have one := accepted_unique visit (drained_accepted visit drained')
      (undispatched_accepted visit waits) same
    exact undispatched item waits w (one ▸ drained_dispatched visit drained')

private theorem quietEnd_runs : (exec (lifespan oneWorker) anyStep
    ((lifespanRun busyStop).get busyStop_runs).1 quietEnd).isSome = true := by decide +kernel

theorem waiting_requests_dropped_one_job :
    WaitingDropped ((lifespanRun busyStop).get busyStop_runs).2
      ((exec (lifespan oneWorker) anyStep ((lifespanRun busyStop).get busyStop_runs).1 quietEnd).get
        quietEnd_runs).2
      ((exec (lifespan oneWorker) anyStep ((lifespanRun busyStop).get busyStop_runs).1 quietEnd).get
        quietEnd_runs).1 :=
  waiting_requests_dropped (reach_of_exec busyStop_runs) (by decide +kernel)
    (run_of_exec (Option.some_get quietEnd_runs).symm)

/-! ### The Manager goes last -/

/-- What is done with a queue of the Manager, or asks for one. -/
def usesManager : Obs → Bool
  | .replied _ _ _ => true
  | .fetched _ _ => true
  | .accepted _ => true
  | .dispatched _ _ => true
  | _ => false

private theorem usesManager_cases {s₀ s s' : State} {event : Event} {o : List Obs}
    (change : Change cfg s₀ event s s' o) {obs : Obs} (told : obs ∈ o)
    (uses : usesManager obs = true) :
    event = .resumeDrain ∨ (∃ j, event = .getReply j) ∨ (∃ w chunk, event = .workerChunk w chunk) ∨
      (∃ w outcome, event = .workerReply w outcome) ∨ s.nextQueue < s'.nextQueue := by
  cases change with
  | jobQueued | bridgeQueued | streamQueued | cloneStart | jobTurnedAway | batchRefused
  | requestRefused =>
    exact .inr (.inr (.inr (.inr (Nat.lt_succ_self _))))
  | drainDispatches resumes => exact .inl resumes
  | getReply _ _ _ gets => exact .inr (.inl ⟨_, gets⟩)
  | workerChunk puts => exact .inr (.inr (.inl ⟨_, _, puts⟩))
  | workerReply puts => exact .inr (.inr (.inr (.inl ⟨_, _, puts⟩)))
  | answered answer =>
    obtain rfl := List.mem_singleton.mp told
    cases obs <;> simp [Obs.isAnswer, usesManager] at answer uses
  | _ =>
    cases obs with
    | replied | fetched | accepted | dispatched => simp [marks_eq_map] at told
    | _ => cases uses

private theorem exited_of_exits (h : Reach (lifespan cfg) P tr z) {w : WorkerRef}
    (ended : z.exits w ≠ none) : ∃ how, .exited w how ∈ tr := by
  induction h with
  | refl => exact absurd rfl ended
  | @tail z z' tr o e before meets taken ih =>
    have earlier : z.exits w ≠ none → ∃ how, .exited w how ∈ tr ++ o :=
      fun was => (ih was).imp fun _ => List.mem_append_left o
    have now : ∀ {v : WorkerRef} {how : Exit}, .exited v how ∈ o →
        Function.update z.exits v (some how) w ≠ none → ∃ how, .exited w how ∈ tr ++ o := by
      intro v how told new
      by_cases here : w = v
      · exact ⟨how, List.mem_append_right tr (here ▸ told)⟩
      · rw [Function.update_of_ne here] at new
        exact earlier new
    cases lifespan_change before taken with
    | takeSentinel | sigterm | dies => exact now List.mem_cons_self ended
    | _ => exact earlier ended

private theorem told_of_signalled (h : Reach (lifespan cfg) P tr z) {w : WorkerRef}
    (signalled : z.signalled w = true) : .signalled w ∈ tr := by
  induction h with
  | refl => cases signalled
  | @tail z z' tr o e before meets taken ih =>
    have now : ∀ {v : WorkerRef} {signals : WorkerRef → Bool} {o' : List LifespanObs},
        z.Terminates v signals o' → signals w = true → .signalled w ∈ tr ++ o' := by
      intro v signals o' terminates told
      rcases terminates with ⟨-, rfl, -⟩ | ⟨-, rfl, rfl⟩
      · exact List.mem_append_left _ (ih told)
      · by_cases here : w = v
        · simp [here]
        · rw [Function.update_of_ne here] at told
          exact List.mem_append_left _ (ih told)
    cases lifespan_change before taken with
    | joinNext _ terminates => exact now terminates signalled
    | joinLast _ terminates =>
      rw [← List.append_assoc]
      exact List.mem_append_left _ (now terminates signalled)
    | _ => exact List.mem_append_left _ (ih signalled)

private theorem manager_step (change : LifespanChange cfg z e z' o)
    (down : z.pc.managerUp = false ∨ .managerDown ∈ o) : z'.pc.managerUp = false := by
  cases change with
  | server | takeSentinel | sigterm | dies => exact down.resolve_right (by simp)
  | joinNext pc terminates =>
    rcases terminates with ⟨-, -, rfl⟩ | ⟨-, -, rfl⟩ <;> simp [pc, StopPc.managerUp] at down
  | joinLast | complete => rfl
  | shutdown pc | cancelled pc | raised pc | drainEnded pc | sendFirst pc | sendNext pc
  | joinFirst pc | putSentinel pc | joinReturns pc => simp [pc, StopPc.managerUp] at down

private theorem manager_down (h : Reach (lifespan cfg) P tr z) (told : .managerDown ∈ tr) :
    z.pc.managerUp = false := by
  induction h with
  | refl => cases told
  | tail before meets taken ih =>
    exact manager_step (lifespan_change before taken) ((List.mem_append.mp told).imp_left ih)

private theorem all_joined (h : Reach (lifespan cfg) P tr z) (down : z.pc.managerUp = false)
    {w : WorkerRef} (inside : w < z.server.workers.length) :
    z.sentinels w ≠ none ∧ (z.exits w ≠ none ∨ z.signalled w = true) := by
  have stage := staged h
  have ended : z.pc = .cleanupEnding ∨ z.pc = .complete := by
    cases pc : z.pc <;> simp [pc, StopPc.managerUp] at down ⊢
  rcases ended with pc | pc <;>
    exact ⟨(stage.sent w).mpr (by rw [pc]; exact inside),
      stage.joined w (by rw [pc]; exact inside)⟩

private theorem silent_step (down : z.pc.managerUp = false) (change : LifespanChange cfg z e z' o) :
    ∀ obs ∈ ofServer o, usesManager obs = false := by
  rcases change.seen with ⟨-, silent⟩ | ⟨event, rfl, moves⟩
  · simp [silent]
  cases change with
  | @server _ s o allowed taken queue =>
    have kept : s.nextQueue = z.server.nextQueue := queue.resolve_left (by simp [down])
    rw [ofServer_step]
    have changes := step_changes taken
    clear taken moves
    have grows : ∀ {a b : State} {tr : List Obs}, Chain (Change cfg z.server event) a tr b →
        a.nextQueue ≤ b.nextQueue := by
      intro a b tr steps
      induction steps with
      | refl => exact le_rfl
      | tail _ change ih => exact ih.trans change.grows.2
    intro obs told
    obtain ⟨_, a, b, o', _, early, change, told', late, -⟩ := changes.exists_change told
    by_contra uses
    rcases usesManager_cases change told' (by simpa using uses) with
      rfl | ⟨j, rfl⟩ | ⟨w, chunk, rfl⟩ | ⟨w, outcome, rfl⟩ | more
    · have serving : z.pc = .serving := by simpa [LifespanState.allows] using allowed
      simp [serving, StopPc.managerUp] at down
    · simp [LifespanState.allows, down] at allowed
    · simp [LifespanState.allows, down] at allowed
    · simp [LifespanState.allows, down] at allowed
    · have raised := lt_of_le_of_lt (grows early) (lt_of_lt_of_le more (grows late))
      exact absurd kept (Nat.ne_of_gt raised)

/-- At the end of `tr` each worker has been sent its sentinel, and its process has come to an end or
been sent a SIGTERM; in `tr'` no reply is put or fetched, and nothing is accepted or dispatched. -/
structure ManagerLast (workers : Nat) (tr tr' : List LifespanObs) : Prop where
  sent : ∀ w < workers, .sentinel w ∈ tr
  ended : ∀ w < workers, (∃ how, .exited w how ∈ tr) ∨ .signalled w ∈ tr
  silent : ∀ obs ∈ ofServer tr', usesManager obs = false

/-- The Manager is shut down when every process has ended or has been told to, and none puts a reply
on one of its queues after that. -/
theorem manager_goes_last (before : Reach (lifespan cfg) anyStep tr z) (down : .managerDown ∈ tr)
    (later : Run (lifespan cfg) anyStep z tr' z') : ManagerLast z.server.workers.length tr tr' := by
  have now := manager_down before down
  refine ⟨fun w inside => ?_, fun w inside => ?_, ?_⟩
  · cases queue_served before w with
    | unsent unsent => exact absurd unsent (all_joined before now inside).1
    | sent _ split => simp [split]
  · exact (all_joined before now inside).2.imp (exited_of_exits before) (told_of_signalled before)
  · have still : ∀ {t : LifespanState} {tr'}, Run (lifespan cfg) anyStep z tr' t →
        t.pc.managerUp = false ∧ ∀ obs ∈ ofServer tr', usesManager obs = false := by
      intro t tr' run
      induction run with
      | refl => exact ⟨now, by simp [ofServer]⟩
      | tail earlier meets taken ih =>
        have change := lifespan_change (before.trans earlier) taken
        refine ⟨manager_step change (.inl ih.1), fun obs told => ?_⟩
        rw [ofServer_append] at told
        rcases List.mem_append.mp told with old | new
        · exact ih.2 obs old
        · exact silent_step ih.1 change obs new
    exact (still later).2

/-- The worker is still at its job when its `join` gives up, and the job at its own end. -/
def deafStop : List LifespanEvent :=
  [.resume, .resume, .putSentinel, .resume, .server (.tick 15), .joinReturns, .resume]

/-- The worker ends then, the wait for its reply fails with what the Manager has left behind, and
the application comes to its end. -/
def afterManager : List LifespanEvent :=
  [.server (.resume "a"), .sigterm 0, .server (.getError "a" "[Errno 32] Broken pipe"),
    .server (.resume "a"), .resume]

private theorem deafStop_runs : (lifespanRun (busyStop ++ deafStop)).isSome = true := by
  decide +kernel

private theorem afterManager_runs : (exec (lifespan oneWorker) anyStep
    ((lifespanRun (busyStop ++ deafStop)).get deafStop_runs).1 afterManager).isSome = true := by
  decide +kernel

theorem manager_goes_last_deaf_worker :
    ManagerLast ((lifespanRun (busyStop ++ deafStop)).get deafStop_runs).1.server.workers.length
      ((lifespanRun (busyStop ++ deafStop)).get deafStop_runs).2
      ((exec (lifespan oneWorker) anyStep ((lifespanRun (busyStop ++ deafStop)).get deafStop_runs).1
        afterManager).get afterManager_runs).2 :=
  manager_goes_last (reach_of_exec deafStop_runs) (by decide +kernel)
    (run_of_exec (Option.some_get afterManager_runs).symm)

/-! ### How long it takes -/

/-- The event loop and the threads of the executor are prompt: the clock passes no moment at which
the shutdown can take a step. -/
def prompt (cfg : Config) (z : LifespanState) (e : LifespanEvent) : Prop :=
  ∀ dt ∈ e.passes, ∀ d, 0 ≤ d → d < dt → ∀ e' : LifespanEvent, e'.own = true →
    lifespanStep cfg (z.after d) e' = none

def stopOnly (_ : LifespanState) (e : LifespanEvent) : Prop := e.own = true ∨ e.passes.isSome = true

/-- When the shutdown can go on by itself: at once, or when its `join` gives up. -/
def due (z : LifespanState) : Option ℚ :=
  match z.pc with
  | .serving => none
  | .complete => none
  | .raised => none
  | .joining w t0 =>
      if z.exits w = none ∧ z.server.now < t0 + joinTimeoutSeconds then
        some (t0 + joinTimeoutSeconds)
      else some z.server.now
  | _ => some z.server.now

private theorem possible_at_due (cfg : Config) {t : ℚ} (h : due z = some t) : z.server.now ≤ t ∧
    ∃ e : LifespanEvent, e.own = true ∧ lifespanStep cfg (z.after (t - z.server.now)) e ≠ none := by
  cases pc : z.pc with
  | serving | complete | raised => simp [due, pc] at h
  | cancelling =>
    obtain rfl : z.server.now = t := by simpa [due, pc] using h
    refine ⟨le_rfl, .cancelled, rfl, ?_⟩
    cases loop : z.server.drain <;>
      simp [lifespanStep, LifespanState.cancelDrain, LifespanState.after, pc, loop]
  | joining w t0 =>
    simp only [due, pc] at h
    split_ifs at h with waits <;> obtain rfl := Option.some.inj h
    · refine ⟨waits.2.le, .joinReturns, rfl, ?_⟩
      simp [lifespanStep, LifespanState.joinReturns, LifespanState.after, pc]
    · refine ⟨le_rfl, .joinReturns, rfl, ?_⟩
      have ended : z.exits w ≠ none ∨ t0 + joinTimeoutSeconds ≤ z.server.now := by
        simpa [imp_iff_not_or] using waits
      simpa [lifespanStep, LifespanState.joinReturns, LifespanState.after, pc, imp_iff_not_or]
        using ended
  | sending w =>
    obtain rfl : z.server.now = t := by simpa [due, pc] using h
    refine ⟨le_rfl, .putSentinel, rfl, ?_⟩
    simp [lifespanStep, LifespanState.putSentinel, LifespanState.after, pc]
  | _ =>
    obtain rfl : z.server.now = t := by simpa [due, pc] using h
    refine ⟨le_rfl, .resume, rfl, ?_⟩
    simp [lifespanStep, LifespanState.resume, LifespanState.after, pc]

private theorem impossible_before_due {d : ℚ} (forward : 0 ≤ d)
    (early : ∀ t, due z = some t → z.server.now + d < t) (own : e.own = true) :
    lifespanStep cfg (z.after d) e = none := by
  have later : ∀ t, due z = some t → z.server.now < t := fun t h => by
    have := early t h
    linarith
  cases pc : z.pc with
  | serving | complete | raised =>
    cases e <;> simp [LifespanEvent.own] at own <;>
      simp [lifespanStep, LifespanState.cancelDrain, LifespanState.resume,
        LifespanState.putSentinel, LifespanState.joinReturns, LifespanState.after, pc]
  | joining w t0 =>
    by_cases waits : z.exits w = none ∧ z.server.now < t0 + joinTimeoutSeconds
    · have before := early (t0 + joinTimeoutSeconds) (by simp only [due, pc, if_pos waits])
      cases e <;> simp [LifespanEvent.own] at own <;>
        simp [lifespanStep, LifespanState.cancelDrain, LifespanState.resume,
          LifespanState.putSentinel, LifespanState.joinReturns, LifespanState.after, pc, waits.1,
          before]
    · exact absurd (later _ (by simp only [due, pc, if_neg waits])) (lt_irrefl _)
  | _ => exact absurd (later _ (by simp only [due, pc])) (lt_irrefl _)

private theorem prompt_iff :
    prompt cfg z e ↔ ∀ dt ∈ e.passes, ∀ t ∈ due z, z.server.now + dt ≤ t := by
  constructor
  · intro h dt passes t waits
    obtain ⟨later, e', own, possible⟩ := possible_at_due cfg waits
    by_contra late
    exact possible (h dt passes _ (by linarith) (by linarith) e' own)
  · intro h dt passes d forward early e' own
    refine impossible_before_due forward (fun t waits => ?_) own
    have := h dt passes t waits
    linarith

instance (z : LifespanState) (e : LifespanEvent) : Decidable (prompt cfg z e) :=
  decidable_of_iff _ prompt_iff.symm

/-- The longest that the joins still to be made can take. -/
def stillWaits (z : LifespanState) : ℚ :=
  let all : ℚ := z.server.workers.length
  match z.pc with
  | .joining w t0 => t0 + joinTimeoutSeconds - z.server.now + joinTimeoutSeconds * (all - (w + 1))
  | .joined w => joinTimeoutSeconds * (all - (w + 1))
  | .cleanupEnding => 0
  | .complete => 0
  | .raised => 0
  | _ => joinTimeoutSeconds * all

/-- The shutdown is on its way, no `join` is overdue, and all will be over by `t`. -/
structure OnTime (t : ℚ) (z : LifespanState) : Prop where
  started : z.pc ≠ .serving
  unbroken : z.pc ≠ .raised
  join : ∀ w t0, z.pc = .joining w t0 → z.server.now ≤ t0 + joinTimeoutSeconds
  bound : z.pc ≠ .complete → z.server.now + stillWaits z ≤ t

private theorem tick_cases {t dt : ℚ} (h : OnTime t z) (meets : prompt cfg z (.server (.tick dt)))
    (forward : 0 ≤ dt) : z.pc = .complete ∨ dt = 0 ∨
      ∃ w t0, z.pc = .joining w t0 ∧ z.server.now + dt ≤ t0 + joinTimeoutSeconds := by
  have early := fun t => prompt_iff.mp meets dt rfl t
  have stays : due z = some z.server.now → dt = 0 := fun now => by
    have := early _ now
    linarith
  cases pc : z.pc with
  | serving => exact absurd pc h.started
  | raised => exact absurd pc h.unbroken
  | complete => exact .inl rfl
  | joining w t0 =>
    by_cases waits : z.exits w = none ∧ z.server.now < t0 + joinTimeoutSeconds
    · exact .inr (.inr ⟨w, t0, rfl, early _ (by simp only [due, pc, if_pos waits]; rfl)⟩)
    · exact .inr (.inl (stays (by simp only [due, pc, if_neg waits])))
  | _ => exact .inr (.inl (stays (by simp [due, pc])))

private theorem onTime_server {t : ℚ} {s : State} {event : Event} {o : List Obs}
    (h : OnTime t z) (meets : prompt cfg z (.server event))
    (moves : step cfg z.server event = some (s, o))
    (length : s.workers.length = z.server.workers.length)
    (sentinels : WorkerRef → Option Nat) : OnTime t { z with server := s, sentinels } := by
  have same_time : s.now = z.server.now → OnTime t { z with server := s, sentinels } := by
    intro same
    have waits : stillWaits { z with server := s, sentinels } = stillWaits z := by
      simp only [stillWaits, length, same]
    refine ⟨h.started, h.unbroken, fun w t0 pc => same ▸ h.join w t0 pc, fun running => ?_⟩
    rw [waits]
    exact same ▸ h.bound running
  rcases step_now moves with ⟨dt, rfl, forward, later⟩ | same
  · rcases tick_cases h meets forward with pc | zero | ⟨w, t0, pc, early⟩
    · exact ⟨h.started, h.unbroken, by simp [pc], fun running => absurd pc running⟩
    · exact same_time (by rw [later, zero, add_zero])
    · refine ⟨h.started, h.unbroken, fun v t1 here => ?_, fun running => ?_⟩
      · obtain ⟨rfl, rfl⟩ : v = w ∧ t1 = t0 := by simpa [pc, eq_comm] using here
        exact later ▸ early
      · have bound := h.bound running
        simp only [stillWaits, pc, length] at bound ⊢
        linarith
  · exact same_time same

private theorem onTime_step {t : ℚ} (before : Reach (lifespan cfg) P tr z) (h : OnTime t z)
    (meets : prompt cfg z e) (taken : (lifespan cfg).step z e = some (z', o)) (allowed : P z e) :
    OnTime t z' := by
  have length : (z'.server.workers.length : ℚ) = z.server.workers.length := by
    rw [length_workers (before.tail allowed taken), length_workers before]
  have stage := staged before
  have change := lifespan_change before taken
  cases change with
  | server _ moves => exact onTime_server h meets moves (by exact_mod_cast length) _
  | shutdown pc => exact absurd pc h.started
  | @raised item pc loop => exact absurd loop (drain_alive (lifespan_visits before) item)
  | cancelled pc | drainEnded pc | sendFirst pc | sendNext pc | putSentinel pc =>
    have bound := h.bound (by simp [pc])
    simp only [stillWaits, pc] at bound
    exact ⟨by simp, by simp, by simp, fun _ => by simpa [stillWaits] using bound⟩
  | joinFirst pc last some_worker =>
    have bound := h.bound (by simp [pc])
    simp only [stillWaits, pc] at bound
    refine ⟨by simp, by simp, fun w t0 here => ?_, fun _ => ?_⟩
    · obtain ⟨-, rfl⟩ : 0 = w ∧ z.server.now = t0 := by simpa using here
      simp [joinTimeoutSeconds]
    · simp only [stillWaits]
      push_cast
      linarith
  | @joinNext w _ o pc ended inside =>
    have bound := h.bound (by simp [pc])
    simp only [stillWaits, pc] at bound
    refine ⟨by simp, by simp, fun v t0 here => ?_, fun _ => ?_⟩
    · obtain ⟨-, rfl⟩ : w + 1 = v ∧ z.server.now = t0 := by simpa using here
      simp [joinTimeoutSeconds]
    · simp only [stillWaits]
      push_cast
      linarith
  | @joinLast w _ o pc ended last =>
    have bound := h.bound (by simp [pc])
    have inside := stage.inside w (by simp [pc, StopPc.worker?])
    have all : ((w : Nat) : ℚ) + 1 = z.server.workers.length := by
      exact_mod_cast le_antisymm (Nat.succ_le_of_lt inside) last
    simp only [stillWaits, pc, all] at bound
    refine ⟨by simp, by simp, by simp, fun _ => ?_⟩
    simp only [stillWaits]
    linarith
  | complete pc => exact ⟨by simp, by simp, by simp, by simp⟩
  | @joinReturns w t0 pc ended =>
    have bound := h.bound (by simp [pc])
    have early := h.join w t0 pc
    simp only [stillWaits, pc] at bound
    refine ⟨by simp, by simp, by simp, fun _ => ?_⟩
    simp only [stillWaits]
    linarith
  | takeSentinel | sigterm | dies => exact ⟨h.started, h.unbroken, h.join, h.bound⟩

/-- How many steps the shutdown still has to take itself. -/
def stopSteps (z : LifespanState) : Nat :=
  let all := z.server.workers.length
  match z.pc with
  | .serving => 4 * all + 6
  | .cancelling => 4 * all + 5
  | .drainEnded => 4 * all + 4
  | .statusEnding => 4 * all + 3
  | .sending w => 2 * all + 2 * (all - w) + 2
  | .sent w => 2 * all + 2 * (all - w) + 1
  | .joining w _ => 2 * (all - w) + 1
  | .joined w => 2 * (all - w)
  | .cleanupEnding => 1
  | .complete => 0
  | .raised => 0

private theorem goes_on (e : LifespanEvent) (z' : LifespanState) (o : List LifespanObs)
    (own : e.own = true) (taken : lifespanStep cfg z e = some (z', o))
    (less : stopSteps z' < stopSteps z) :
    ∃ tr' t, Run (lifespan cfg) stopOnly z tr' t ∧ stopSteps t < stopSteps z :=
  ⟨o, z', .single (.inl own) taken, less⟩

private theorem unbroken (h : Reach (lifespan cfg) P tr z) : z.pc ≠ .raised := by
  induction h with
  | refl => simp [lifespan, LifespanState.init]
  | tail before meets taken ih =>
    cases lifespan_change before taken with
    | raised pc loop => exact absurd loop (drain_alive (lifespan_visits before) _)
    | server | takeSentinel | sigterm | dies => exact ih
    | _ => simp

/-- A `join` that has not returned does, at the latest when it has waited for its time. -/
private theorem join_goes_on {w : WorkerRef} {t0 : ℚ} (pc : z.pc = .joining w t0) :
    ∃ tr' t, Run (lifespan cfg) stopOnly z tr' t ∧ stopSteps t < stopSteps z := by
  by_cases ended : z.exits w ≠ none ∨ t0 + joinTimeoutSeconds ≤ z.server.now
  · refine goes_on .joinReturns { z with pc := .joined w } [] rfl ?_ ?_
    · simp only [lifespanStep, LifespanState.joinReturns, pc]
      exact if_pos ended
    · simp [stopSteps, pc]
  · -- The clock is the only one to wait for.
    push Not at ended
    let dt := t0 + joinTimeoutSeconds - z.server.now
    let later := z.after dt
    have forward : 0 ≤ dt := by
      have := ended.2
      simp only [dt]
      linarith
    have waited : (lifespan cfg).step z (.server (.tick dt)) = some (later, []) := by
      simp [lifespan, lifespanStep, serverGoesOn, LifespanState.allows, step, forward, later,
        LifespanState.after, State.puts, countTaken]
    have returns : (lifespan cfg).step later .joinReturns =
        some ({ later with pc := .joined w }, []) := by
      simp [lifespan, lifespanStep, LifespanState.joinReturns, later, LifespanState.after, pc, dt]
    refine ⟨_, _, (Run.single (.inr rfl) waited).tail (.inl rfl) returns, ?_⟩
    simp [stopSteps, pc, later, LifespanState.after]

/-- Wherever the shutdown stands, it can go on without a worker, a client or a task of the server
doing anything. -/
private theorem stop_goes_on (h : Reach (lifespan cfg) P tr z) (begun : z.pc ≠ .serving)
    (more : z.pc ≠ .complete) :
    ∃ tr' t, Run (lifespan cfg) stopOnly z tr' t ∧ stopSteps t < stopSteps z := by
  have some_worker := List.length_pos_of_ne_nil (workers_ne_nil (lifespan_visits h))
  have stage := staged h
  cases pc : z.pc with
  | complete => exact absurd pc more
  | raised => exact absurd pc (unbroken h)
  | serving => exact absurd pc begun
  | cancelling =>
    refine goes_on .cancelled { z with pc := .drainEnded } [.cancelled] rfl ?_
      (by simp [stopSteps, pc])
    cases loop : z.server.drain with
    | raised item => exact absurd loop (drain_alive (lifespan_visits h) item)
    | _ => simp [lifespanStep, LifespanState.cancelDrain, pc, loop]
  | drainEnded =>
    refine goes_on .resume { z with pc := .statusEnding } [] rfl ?_ ?_
    · simp only [lifespanStep, LifespanState.resume, pc]
    · simp [stopSteps, pc]
  | statusEnding =>
    refine goes_on .resume { z with pc := .sending 0 } [] rfl ?_ ?_
    · simp [lifespanStep, LifespanState.resume, pc, LifespanState.sendFrom, some_worker]
    · simp [stopSteps, pc]
      omega
  | sending w =>
    refine goes_on .putSentinel { z with
        pc := .sent w
        sentinels := Function.update z.sentinels w
          (some (z.server.processes w).requestQueue.length) } [.sentinel w] rfl ?_ ?_
    · simp only [lifespanStep, LifespanState.putSentinel, pc]
    · simp [stopSteps, pc]
  | sent w =>
    have inside := stage.inside w (by simp [pc, StopPc.worker?])
    by_cases next : w + 1 < z.server.workers.length
    · refine goes_on .resume { z with pc := .sending (w + 1) } [] rfl ?_ ?_
      · simp [lifespanStep, LifespanState.resume, pc, LifespanState.sendFrom, next]
      · simp only [stopSteps, pc]
        omega
    · refine goes_on .resume { z with pc := .joining 0 z.server.now } [] rfl ?_ ?_
      · simp [lifespanStep, LifespanState.resume, pc, LifespanState.sendFrom,
          LifespanState.joinFrom, next, some_worker]
      · simp only [stopSteps, pc]
        omega
  | joining w t0 => exact join_goes_on pc
  | joined w =>
    have inside := stage.inside w (by simp [pc, StopPc.worker?])
    obtain ⟨⟨z₁, o₁⟩, ends⟩ : ∃ effect, z.terminate w = effect := ⟨_, rfl⟩
    obtain ⟨frame, -⟩ := LifespanState.terminates_of ends
    have kept : z₁.server = z.server := by rw [frame]
    by_cases next : w + 1 < z.server.workers.length
    · refine goes_on .resume { z₁ with pc := .joining (w + 1) z.server.now } (o₁ ++ []) rfl ?_ ?_
      · simp only [lifespanStep, LifespanState.resume, pc, ends, LifespanState.joinFrom, kept,
          if_pos next]
      · simp only [stopSteps, pc, kept]
        omega
    · refine goes_on .resume { z₁ with pc := .cleanupEnding } (o₁ ++ [.managerDown]) rfl ?_ ?_
      · simp only [lifespanStep, LifespanState.resume, pc, ends, LifespanState.joinFrom, kept,
          if_neg next]
      · simp only [stopSteps, pc]
        omega
  | cleanupEnding =>
    refine goes_on .resume { z with pc := .complete } [.complete] rfl ?_ ?_
    · simp only [lifespanStep, LifespanState.resume, pc]
    · simp [stopSteps, pc]

private theorem begun_of_run (before : Reach (lifespan cfg) P tr z)
    (later : Run (lifespan cfg) P z tr' z') (begun : z.pc ≠ .serving) : z'.pc ≠ .serving := by
  induction later with
  | refl => exact begun
  | tail earlier meets taken ih =>
    cases lifespan_change (before.trans earlier) taken with
    | server | takeSentinel | sigterm | dies => exact ih
    | _ => simp

private theorem stillWaits_nonneg {t : ℚ} (h : OnTime t z) (stage : Staged z) :
    0 ≤ stillWaits z := by
  have seconds : (0 : ℚ) ≤ joinTimeoutSeconds := by norm_num [joinTimeoutSeconds]
  have all : (0 : ℚ) ≤ z.server.workers.length := Nat.cast_nonneg _
  have rest : ∀ w : Nat, z.pc.worker? = some w → (0 : ℚ) ≤ z.server.workers.length - (w + 1) := by
    intro w here
    have inside : (w + 1 : ℚ) ≤ z.server.workers.length := by
      exact_mod_cast Nat.succ_le_of_lt (stage.inside w here)
    linarith
  cases pc : z.pc with
  | joining w t0 =>
    have early := h.join w t0 pc
    have := mul_nonneg seconds (rest w (by simp [pc, StopPc.worker?]))
    simp only [stillWaits, pc]
    linarith
  | joined w =>
    simpa only [stillWaits, pc] using mul_nonneg seconds (rest w (by simp [pc, StopPc.worker?]))
  | cleanupEnding | complete | raised => simp [stillWaits, pc]
  | _ => simpa only [stillWaits, pc] using mul_nonneg seconds all

/-- The shutdown that began in `z` and has come to `z'` is over, or not late; and it can be brought
to its end from there by its own steps and the clock. -/
structure EndsInTime (cfg : Config) (z z' : LifespanState) : Prop where
  inTime : z'.pc ≠ .complete →
    z'.server.now ≤ z.server.now + joinTimeoutSeconds * z.server.workers.length
  ends : ∃ tr t, Run (lifespan cfg) stopOnly z' tr t ∧ t.pc = .complete

private theorem stopping_runs : (lifespanRun (busyStop.dropLast)).isSome = true := by decide +kernel

private theorem deafWorker_runs : (exec (lifespan oneWorker) (prompt oneWorker)
    ((lifespanRun busyStop.dropLast).get stopping_runs).1
      (.cancelled :: deafStop)).isSome = true := by
  decide +kernel

end XttsServer.Guarantees
