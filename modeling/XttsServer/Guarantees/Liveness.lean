import XttsServer.Foundations.Liveness
import XttsServer.Guarantees.Progress
import XttsServer.Guarantees.Responses
import XttsServer.Runs.Work

/-!
The pipeline neither turns for nothing nor leaves anything undone. In any run the steps
that it takes by itself are paid for by what clients have asked for and workers have sent,
and whatever is accepted is finished, in whichever order these steps are taken.
-/

set_option autoImplicit false
set_option relaxedAutoImplicit false

namespace XttsServer.Guarantees

open XttsServer.Model XttsServer.Foundations XttsServer.Foundations.Transition

variable {cfg : Config} {threads : Nat} {s s' : PoolState threads} {e : PoolEvent}
  {tr o : List PoolObs}

/-! ### No step for nothing -/

def isChunk : Obs → Bool
  | .replied _ _ (.chunk _) => true
  | _ => false

/-- `get_audio` has found the file. -/
def givesAudio : Obs → Bool
  | .audio _ _ (.ok _) => true
  | _ => false

private theorem broughtIn_le (tr : List Obs) :
    broughtIn tr ≤ 50 * (requests tr).length + 10 * tr.countP isChunk + 2 *
      tr.countP givesAudio := by
  induction tr with
  | nil => exact Nat.zero_le _
  | cons obs tr ih =>
    have split : broughtIn (obs :: tr) = obs.chores + broughtIn tr := by simp [broughtIn]
    have head : obs.chores ≤ 50 * (requests [obs]).length + 10 * [obs].countP isChunk +
        2 * [obs].countP givesAudio := by
      cases obs with
      | dispatched r w => cases r <;> simp [Obs.chores, isChunk, givesAudio]
      | replied w r m => cases m <;> simp [Obs.chores, isChunk, givesAudio]
      | audio g j answer => cases answer <;> simp [Obs.chores, isChunk, givesAudio]
      | _ => simp [Obs.chores, isChunk, givesAudio]
    have known : (requests (obs :: tr)).length = (requests [obs]).length +
        (requests tr).length := by
      rw [← List.length_append, ← List.filterMap_append]
      rfl
    have chunks : (obs :: tr).countP isChunk = [obs].countP isChunk + tr.countP isChunk := by
      rw [← List.countP_append]
      rfl
    have files : (obs :: tr).countP givesAudio = [obs].countP givesAudio +
        tr.countP givesAudio := by
      rw [← List.countP_append]
      rfl
    omega

/-- In every run, whatever its order, the steps of the event loop, the threads, the sockets and the
workers are bounded by the requests accepted, the chunks sent and the downloads given. -/
theorem busy_steps_bounded {es : List PoolEvent}
    (run : exec (pooled cfg threads) anyStep (pooled cfg threads).init es = some (s, tr)) :
    es.countP PoolEvent.busy ≤ 250 * (requests (serverTrace tr)).length +
      50 * (serverTrace tr).countP isChunk + 10 * (serverTrace tr).countP givesAudio := by
  have whole := run_of_exec run
  have counted :=
    countP_busy_le (fun s => s.work (requests (serverTrace tr)).toFinset (workerCount cfg))
      PoolEvent.busy (fun o => 5 * broughtIn (serverTrace o))
    (fun o o' => by rw [serverTrace_append, broughtIn_append, Nat.mul_add])
    (fun {tr' s e t o} before _ taken inside => by
      have sub : requests (serverTrace (tr' ++ o)) ⊆ requests (serverTrace tr) := by
        obtain ⟨rest, rfl⟩ := inside
        rw [serverTrace_append (tr' ++ o), requests, requests, List.filterMap_append]
        exact List.subset_append_left _ _
      have leaves := poolStep_work whole before taken sub
      cases busy : e.busy with
      | true => exact Nat.le_add_right_of_le (leaves.less busy)
      | false => exact leaves.paid)
    .refl run rfl
  have nothing : (pooled cfg threads).init.work (requests (serverTrace tr)).toFinset
    (workerCount cfg) = 0 := by
    simp [pooled, PoolState.init, PoolState.work, State.chores, State.init, Executor.load,
      Executor.idle, PoolState.speechChores, State.taskChores, DrainPc.chores, Process.chores]
  have paid := broughtIn_le (serverTrace tr)
  rw [nothing] at counted
  omega

def wholeGreeting : List PoolEvent :=
  .server (.runSynthesis sayHello noSpeakers "a") :: spokenGreeting

private theorem wholeGreeting_runs :
    (exec (pooled oneWorker 1) anyStep (pooled oneWorker 1).init wholeGreeting).isSome = true := by
  decide +kernel

theorem busy_steps_bounded_greeting :
    wholeGreeting.countP PoolEvent.busy ≤ 250 * (requests
      (serverTrace ((exec (pooled oneWorker 1) anyStep
        (pooled oneWorker 1).init wholeGreeting).get wholeGreeting_runs).2)).length +
      50 * (serverTrace ((exec (pooled oneWorker 1) anyStep
        (pooled oneWorker 1).init wholeGreeting).get wholeGreeting_runs).2).countP isChunk +
      10 * (serverTrace ((exec (pooled oneWorker 1) anyStep
        (pooled oneWorker 1).init wholeGreeting).get wholeGreeting_runs).2).countP givesAudio :=
  busy_steps_bounded (Option.some_get wholeGreeting_runs).symm

/-! ### Nothing left undone -/

/-- A step of the pipeline itself or a failure on its way, no client and no chunk. -/
def ownStep (s : PoolState threads) (e : PoolEvent) : Prop := e.busy = true ∧ uncancelled s e

/-- A step of the pipeline itself that needs no failure. -/
def pipelineStep (s : PoolState threads) (e : PoolEvent) :
    Prop := e.busy = true ∧ internal s e = true

/-- A chunk takes no request nearer to its end. -/
private theorem stepsLeft_of_chunk {w : WorkerRef} {c : Ndarray} {r : Request}
    (taken : poolStep cfg s (.server (.workerChunk w c)) = some (s', o)) :
    stepsLeft s r ≤ stepsLeft s' r := by
  simp only [poolStep, serverStep, step, workerChunk] at taken
  split at taken
  · cases taken
  · rename_i server told stepped
    split at stepped
    · rename_i rest r' busy
      obtain ⟨rfl, rfl⟩ := Prod.mk.inj (Option.some.inj stepped)
      simp only [Event.threadOf, Event.submitted, Event.cancelled, openSpeech] at taken
      obtain ⟨rfl, rfl⟩ := Prod.mk.inj (Option.some.inj taken)
      have longer : (s.server.resultQueues r.resultQueue).length ≤
          (Function.update s.server.resultQueues r'.resultQueue
            (s.server.resultQueues r'.resultQueue ++ [.chunk ⟨r'.jobId, c⟩])
              r.resultQueue).length := by
        by_cases here : r.resultQueue = r'.resultQueue
        · rw [here, Function.update_self, List.length_append]
          exact Nat.le_add_right _ _
        · rw [Function.update_of_ne here]
      simp only [stepsLeft, State.steps, State.taskSteps, State.workSteps, Request.resultQueue]
        at longer ⊢
      omega
    · cases stepped

private theorem pipelineStep_of_progresses {r : Request} (progress : Progresses cfg s r) :
    ∃ e s' o, pipelineStep s e ∧ poolStep cfg s e = some (s', o) := by
  obtain ⟨e, s', o, inner, taken, less⟩ := progress
  refine ⟨e, s', o, ⟨?_, inner⟩, taken⟩
  cases e with
  | server e =>
    cases e with
    | workerChunk w c => exact absurd (stepsLeft_of_chunk taken) (Nat.not_le_of_lt less)
    | _ => first | rfl | cases inner
  | _ => rfl

/-- A state of the pipeline that allows none of its steps is at rest: no thread works, nothing is
queued, and every task and every handler has ended. -/
private theorem atRest_of_stuck (pool : 1 ≤ threads)
    (distinct : DistinctIds (start cfg.cudaOk cfg.settings.workersPerGpuList))
    (h : Reach (pooled cfg threads) uncancelled tr s)
    (stuck : ∀ e s' o, pipelineStep s e → poolStep cfg s e ≠ some (s', o)) :
    s.executor.calls = [] ∧ s.server.items = [] ∧
      (∀ j t, s.server.tasks j = some t → t.finished = true) ∧
      ∀ j speech, s.speech j = some speech → speech.pc = .ended := by
  have visit := visit_of_reach (server_reach h)
  have holds := threaded h
  have none {r : Request} (progress : Progresses cfg s r) : False := by
    obtain ⟨e, s', o, own, taken⟩ := pipelineStep_of_progresses progress
    exact stuck e s' o own taken
  have idle : s.executor.calls = [] := by
    by_contra occupied
    rcases Executor.running_or_start pool occupied s.server.now with running | ⟨c, executor, start⟩
    · obtain ⟨⟨c, t⟩, rest, list⟩ := List.exists_cons_of_ne_nil running
      have inside : c ∈ s.executor.running.map Prod.fst := by rw [list]; exact List.mem_cons_self
      obtain ⟨t, started⟩ := Executor.started?_isSome inside
      rcases (holds.calls c).mp (List.mem_append_left _ inside) with waits | coding
      · obtain ⟨e, r, -, advances, thread⟩ := call_advances visit waits
        exact none (progresses_of_advances advances
          (thread.imp_right fun same => ⟨c, t, same, started⟩))
      · obtain ⟨r, -, progress⟩ := encode_progresses h coding started
        exact none progress
    · obtain ⟨r, -, progress⟩ := start_progresses h start
      exact none progress
  have free (c : Call) : ¬ s.server.awaits c := fun waits => by
    have mine := (holds.calls c).mpr (.inl waits)
    rw [idle] at mine
    cases mine
  have loop (work : s.server.items ≠ [] ∨ ∃ j t, s.server.tasks j = some t ∧ t.finished = false) :
      False := by
    obtain ⟨e, r, -, advances, thread⟩ := loop_advances (noShadow_of_distinct distinct)
      visit free work
    exact none (progresses_of_advances advances (.inl thread))
  have empty : s.server.items = [] := by
    by_contra waiting
    exact loop (.inl waiting)
  have ended : ∀ j t, s.server.tasks j = some t → t.finished = true := fun j t task => by
    by_contra running
    exact loop (.inr ⟨j, t, task, by simpa using running⟩)
  refine ⟨idle, empty, ended, fun j speech here => ?_⟩
  by_contra still
  have outside : speech.pc.inThread = false := by
    by_contra inside
    have mine := (holds.calls ⟨.encode, j⟩).mpr (.inr ⟨rfl, speech, here, by simpa using inside⟩)
    rw [idle] at mine
    cases mine
  -- Its future is held by a collector or a queued item, and there is none, or it is resolved.
  obtain ⟨r, -, progress⟩ := speech_progresses h here outside still fun waits => by
    rcases holds.bridges j speech here waits with ⟨item, member, -⟩ | ⟨k, u, there, carries⟩ | done
    · rw [empty] at member
      cases member
    · have finished := ended k u there
      cases u with
      | collector w r cb at' pc =>
        cases cb <;> cases pc <;> simp [Task.bridge?, CollectPc.holds, Task.finished]
          at carries finished
      | _ => cases carries
    · exact done
  exact none progress

/-- With a thread at least and no handler cancelled, every request that the server has accepted is
finished whichever steps the pipeline takes, as long as it takes some; and there is always one to
take until then. -/
theorem inevitably_finished (pool : 1 ≤ threads)
    (distinct : DistinctIds (start cfg.cudaOk cfg.settings.workersPerGpuList))
    (h : Reach (pooled cfg threads) uncancelled tr s) :
    Inevitable (pooled cfg threads) ownStep pipelineStep
      (fun t => ∀ r ∈ requests (serverTrace tr), Finished t r) s := by
  refine inevitable_of_size (I := fun t => ∃ tr', Reach (pooled cfg threads) uncancelled tr' t ∧
      requests (serverTrace tr') = requests (serverTrace tr))
    (fun t => t.work (requests (serverTrace tr)).toFinset (workerCount cfg)) ?_ ?_ ⟨tr, h, rfl⟩
  · rintro t ⟨tr', there, same⟩ undone
    obtain ⟨r, known, unfinished⟩ : ∃ r ∈ requests (serverTrace tr), ¬ Finished t r := by
      by_contra all
      exact undone fun r known => not_not.mp fun open_ => all ⟨r, known, open_⟩
    by_contra none
    have stuck : ∀ e t' o, pipelineStep t e → poolStep cfg t e ≠ some (t', o) :=
      fun e t' o own taken =>
      none ⟨e, t', o, own, taken⟩
    obtain ⟨-, empty, ended, answered⟩ := atRest_of_stuck pool distinct there stuck
    rcases located (visit_of_reach (server_reach there)) (same ▸ known) with
      ⟨item, member, -⟩ | ⟨u, task, -⟩
    · rw [empty] at member
      cases member
    · exact unfinished ⟨⟨u, task, ended _ u task⟩, fun speech here => answered _ speech here⟩
  · rintro t e u o ⟨tr', there, same⟩ ⟨busy, kept⟩ taken
    have reach : Reach (pooled cfg threads) anyStep tr' t := there.mono fun _ _ _ => trivial
    have nothing := poolStep_requests reach taken busy
    have more : requests (serverTrace (tr' ++ o)) = requests (serverTrace tr') := by
      rw [serverTrace_append, requests, List.filterMap_append, ← requests, ← requests, nothing,
        List.append_nil]
    have leaves := poolStep_work reach reach taken (more ▸ List.Subset.refl _)
    exact ⟨⟨tr' ++ o, there.tail kept taken, more.trans same⟩, same ▸ leaves.less busy⟩

theorem inevitably_finished_blocked_thread :
    Inevitable (pooled oneWorker 1) ownStep pipelineStep
      (fun t => ∀ r ∈ requests (serverTrace ((exec (pooled oneWorker 1) uncancelled
        (pooled oneWorker 1).init blockedThread).get blockedThread_runs).2), Finished t r)
      ((exec (pooled oneWorker 1) uncancelled (pooled oneWorker 1).init blockedThread).get
        blockedThread_runs).1 :=
  inevitably_finished (Nat.le_refl 1) (by decide +kernel) (reach_of_exec blockedThread_runs)

end XttsServer.Guarantees
