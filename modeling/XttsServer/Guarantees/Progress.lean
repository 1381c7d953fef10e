import XttsServer.Guarantees.Backpressure
import XttsServer.Runs.Threads

/-!
The pipeline has no deadlock, however few threads the executor has. Nobody blocks
a thread on a reply before the request was put, so whatever the threads wait for
is in the hands of a worker, and the rest is up to the event loop.
-/

set_option autoImplicit false
set_option relaxedAutoImplicit false

namespace XttsServer.Guarantees

open XttsServer.Model XttsServer.Foundations XttsServer.Foundations.Transition

variable {cfg : Config} {P : State → Event → Prop}

/-! ### The event loop -/

section Loop

variable {s : State} {tr : List Obs}

theorem unfinished_of_held {j : JobId} {w : WorkerRef} (holding : held s.tasks j = some w) :
    ∃ t, s.tasks j = some t ∧ t.finished = false ∧ ∀ r, t ≠ .stream r .awaiting := by
  obtain ⟨t, task, holds⟩ := Option.bind_eq_some_iff.mp holding
  refine ⟨t, task, ?_⟩
  cases t with
  | collector w r cb at' pc =>
    cases pc <;> simp [Task.finished, Task.holds, CollectPc.holds] at holds ⊢
  | stream r pc => cases pc <;> simp [Task.finished, Task.holds, StreamPc.holds] at holds ⊢
  | clone w r pc => cases pc <;> simp [Task.finished, Task.holds, ClonePc.holds] at holds ⊢

theorem owner_of_busy (noShadow : NoShadow cfg P)
    (started : ∀ s e, P s e → cancelsUnstarted s e = false) (h : Visit cfg P tr s)
    (busy : AllBusy s) :
    ∃ j w, Owns s j w := by
  obtain ⟨w, rest, workers⟩ := List.exists_cons_of_ne_nil (workers_ne_nil h)
  have found : s.workers[0]? = some w := by rw [workers]; rfl
  have active := busy w (List.mem_of_getElem? found)
  rw [(books noShadow h).active 0 w found] at active
  obtain ⟨j, member⟩ := List.exists_mem_of_length_pos active
  exact ⟨j, 0, outstanding_owned noShadow started h (Ledger.mem_atPlace.mp member)⟩

private theorem keepsHandlers_started (s : State) (e : Event) (kept : keepsHandlers s e) :
    cancelsUnstarted s e = false := by
  cases e <;> first | rfl | cases kept

/-- While nobody waits for a thread, the event loop has a step for some request. -/
theorem loop_advances (noShadow : NoShadow cfg keepsHandlers)
    (h : Visit cfg keepsHandlers tr s) (free : ∀ c, ¬ s.awaits c)
    (work : s.items ≠ [] ∨ ∃ j t, s.tasks j = some t ∧ t.finished = false) :
    ∃ e r, r ∈ requests tr ∧ Advances cfg s e r ∧ e.threadOf s = none := by
  have goesOn : ∀ {j t}, s.tasks j = some t → t.finished = false → (∀ r, t ≠ .stream r .awaiting) →
      ∃ e r, r ∈ requests tr ∧ Advances cfg s e r ∧ e.threadOf s = none :=
    fun {j t} task running assigned => by
      have known : t.request ∈ requests tr := by
        rw [← Task.request_role]
        exact ((placed h).serves j t task).known
      have idle : t.call? = none := by
        cases call : t.call? with
        | none => rfl
        | some k => exact absurd (.inr (by rw [call?_of_task task, call]; rfl)) (free ⟨k, j⟩)
      rcases task_advances h task idle running assigned with advances | advances
      · exact ⟨_, _, known, advances, rfl⟩
      · exact ⟨_, _, known, advances, rfl⟩
  have busyGoesOn : (∀ item w, s.drain ≠ .putting item w) → (∀ item w, s.drain ≠ .put item w) →
      AllBusy s → ∃ e r, r ∈ requests tr ∧ Advances cfg s e r ∧ e.threadOf s = none :=
    fun noPut noneThere busy => by
      obtain ⟨j, w, draining | holding⟩ := owner_of_busy noShadow keepsHandlers_started h busy
      · cases loop : s.drain with
        | putting item w => exact absurd loop (noPut item w)
        | put item w => exact absurd loop (noneThere item w)
        | _ => rw [loop] at draining; cases draining
      · obtain ⟨t, task, running, assigned⟩ := unfinished_of_held holding
        exact goesOn task running assigned
  have drains : s.items ≠ [] → ∃ e r, r ∈ requests tr ∧ Advances cfg s e r ∧ e.threadOf s = none :=
    fun some_item => by
      have known : ∀ {item}, item ∈ s.items → item.request ∈ requests tr :=
        fun member => request_mem_requests (items_accepted h member)
      cases loop : s.drain with
      | getting =>
        obtain ⟨item, rest, queue⟩ : ∃ item rest, s.queue = item :: rest :=
          List.exists_cons_of_ne_nil (by simpa [State.items, loop, DrainPc.item?] using some_item)
        exact ⟨_, _, known (by simp [State.items, loop, queue]), queue_advances h loop queue, rfl⟩
      | waiting item notified =>
        by_cases busy : AllBusy s
        · exact busyGoesOn (by simp [loop]) (by simp [loop]) busy
        · have woken : notified = true := by
            have awake : asleep s.drain ≠ true := fun still => busy (asleep_busy h still)
            simpa [asleep, loop] using awake
          subst woken
          have idle : allBusy s.workers = false := by
            rwa [← Bool.not_eq_true, allBusy_iff (workers_ne_nil h)]
          exact ⟨_, _, known (by simp [State.items, loop, DrainPc.item?]),
            waiting_advances loop idle, rfl⟩
      | putting item w => exact absurd (.inl (by rw [loop]; rfl)) (free ⟨.put, item.jobId⟩)
      | put item w =>
        exact ⟨_, _, known (by simp [State.items, loop, DrainPc.item?]), put_advances h loop, rfl⟩
      | raised item => exact absurd loop (drain_alive h item)
  rcases work with some_item | ⟨j, t, task, running⟩
  · exact drains some_item
  · by_cases waits : ∃ r, t = .stream r .awaiting
    · obtain ⟨r, rfl⟩ := waits
      obtain ⟨item, member, -⟩ := awaiting_queued h task
      exact drains (List.ne_nil_of_mem member)
    · exact goesOn task running fun r same => waits ⟨r, same⟩

end Loop

/-! ### The pool -/

section Pool

variable {threads : Nat} {s s' : PoolState threads} {tr : List PoolObs}

/-- The request is done with: its task has ended, and so has a `_run_synthesis` call for it. -/
def Finished (s : PoolState threads) (r : Request) : Prop :=
  (∃ t, s.server.tasks r.jobId = some t ∧ t.finished = true) ∧
    ∀ speech, s.speech r.jobId = some speech → speech.pc = .ended

def speechSteps : SpeechPc → Nat
  | .awaiting => 20
  | .encoding _ _ => 10
  | .encoded _ _ => 5
  | .ended => 0

/-- The way that the request has ahead of it, its calls that wait for a thread included. -/
def stepsLeft (s : PoolState threads) (r : Request) : Nat :=
  s.server.steps r + (s.speech r.jobId).elim 0 (fun speech => speechSteps speech.pc) +
    s.executor.waiting.countP fun c => c.jobId = r.jobId

/-- A step of the pipeline itself; `audio_to_bytes` returns if it has an array and raises if not. -/
def internal (s : PoolState threads) : PoolEvent → Bool
  | .server e => e.internal s.server
  | .start => true
  | .resumeSpeech _ => true
  | .encode j raised =>
      match s.speech j with
      | some ⟨_, _, _, .encoding _ result⟩ => raised.isNone = result.audio.isSome
      | _ => false
  | .abandoned _ => false

/-- An internal step is enabled that takes the request nearer to its end. -/
def Progresses (cfg : Config) (s : PoolState threads) (r : Request) : Prop :=
  ∃ e s' o, internal s e = true ∧ poolStep cfg s e = some (s', o) ∧ stepsLeft s' r < stepsLeft s r

private theorem internal_plain {a : State} {e : Event} (h : e.internal a = true) :
    e.cancelled = none ∧ e.timesOut = false ∧
      ∀ (s : PoolState threads) (o : List Obs), openSpeech cfg s o e = s.speech := by
  cases e <;> first | exact ⟨rfl, rfl, fun _ _ => rfl⟩ | cases h

theorem progresses_of_advances {e : Event} {r : Request} (advances : Advances cfg s.server e r)
    (thread : e.threadOf s.server = none ∨
      ∃ c t, e.threadOf s.server = some c ∧ s.executor.started? c = some t) :
    Progresses cfg s r := by
  obtain ⟨inner, a, o, taken, less⟩ := advances
  obtain ⟨kept, waits, speech⟩ := @internal_plain cfg threads s.server e inner
  have nearer : ∀ {s' : PoolState threads}, s'.server = a → s'.speech = s.speech →
      (s'.executor.waiting.countP fun c => c.jobId = r.jobId) ≤
        (s.executor.waiting.countP fun c => c.jobId = r.jobId) + 1 →
      stepsLeft s' r < stepsLeft s r :=
    fun {s'} same speech calls => by
      rw [stepsLeft, stepsLeft, same, speech]
      omega
  rcases thread with none | ⟨c, t, thread, running⟩
  · cases submitted : e.submitted a with
    | none =>
      have value : poolStep cfg s (.server e) = some ({ s with server := a }, o.map .server) := by
        simp only [poolStep, serverStep, taken, none, kept, submitted, speech]
      exact ⟨.server e, _, _, inner, value, nearer rfl rfl (Nat.le_succ _)⟩
    | some c =>
      have value : poolStep cfg s (.server e) = some
          ({ s with server := a, executor := s.executor.submit c },
            o.map .server ++ [.submitted c]) := by
        simp only [poolStep, serverStep, taken, none, kept, submitted, speech]
      exact ⟨.server e, _, _, inner, value, nearer rfl rfl (Executor.countP_waiting_submit ..)⟩
  · cases done : e.returns with
    | false =>
      have value : poolStep cfg s (.server e) = some ({ s with server := a }, o.map .server) := by
        simp [poolStep, serverStep, taken, thread, running, waits, done]
      exact ⟨.server e, _, _, inner, value, nearer rfl rfl (Nat.le_succ _)⟩
    | true =>
      have value : poolStep cfg s (.server e) = some
          ({ s with server := a, executor := s.executor.finish c },
            o.map .server ++ [.returned c]) := by
        simp [poolStep, serverStep, taken, thread, running, waits, done]
      exact ⟨.server e, _, _, inner, value, nearer rfl rfl (Nat.le_succ _)⟩

theorem start_progresses (h : Reach (pooled cfg threads) uncancelled tr s) {c : Call}
    {executor : Executor Call ℚ threads}
    (start : s.executor.start s.server.now = some (c, executor)) :
    ∃ r ∈ requests (serverTrace tr), Progresses cfg s r := by
  have visit := visit_of_reach (server_reach h)
  have holds := threaded h
  have waiting := (Executor.start_eq_some start).1
  have mine : c ∈ s.executor.calls := by
    rw [Executor.calls, waiting]
    exact List.mem_append_right _ List.mem_cons_self
  obtain ⟨r, known, named⟩ : ∃ r ∈ requests (serverTrace tr), r.jobId = c.jobId := by
    rcases (holds.calls c).mp mine with waits | ⟨-, speech, here, -⟩
    · exact awaits_known visit waits
    · exact holds.known c.jobId (by simp [here])
  have value : poolStep cfg s .start = some ({ s with executor }, [.started c]) := by
    simp only [poolStep, startCall, start]
  refine ⟨r, known, .start, _, _, rfl, value, ?_⟩
  simp only [stepsLeft, waiting, List.countP_cons, named, decide_true, if_true]
  omega

private theorem progresses_of_speech {j : JobId} {r : Request} (named : r.jobId = j)
    {speech next : Speech} (here : s.speech j = some speech) {executor : Executor Call ℚ threads}
    {e : PoolEvent} {o : List PoolObs} (inner : internal s e = true)
    (taken : poolStep cfg s e = some ({ s.setSpeech j next with executor }, o))
    (calls : (executor.waiting.countP fun c => c.jobId = r.jobId) ≤
      (s.executor.waiting.countP fun c => c.jobId = r.jobId) + 1)
    (less : speechSteps next.pc + 2 ≤ speechSteps speech.pc) : Progresses cfg s r := by
  refine ⟨e, _, o, inner, taken, ?_⟩
  have now : (s.setSpeech j next).speech r.jobId = some next := by
    rw [speech_setSpeech, if_pos named]
  have before : s.speech r.jobId = some speech := named ▸ here
  have server : (s.setSpeech j next).server = s.server := rfl
  simp only [stepsLeft, now, before, server, Option.elim_some]
  omega

theorem speech_progresses (h : Reach (pooled cfg threads) uncancelled tr s) {j : JobId}
    {speech : Speech} (here : s.speech j = some speech) (free : speech.pc.inThread = false)
    (running : speech.pc ≠ .ended)
    (resolved : speech.pc = .awaiting → (s.server.resultFutures j).isSome = true) :
    ∃ r ∈ requests (serverTrace tr), Progresses cfg s r := by
  obtain ⟨r, known, named⟩ := (threaded h).known j (by simp [here])
  refine ⟨r, known, ?_⟩
  obtain ⟨fmt, language, tSubmit, pc⟩ := speech
  have answers : ∀ answer : Except Exc SpeechAnswer, 2 ≤ speechSteps pc →
      poolStep cfg s (.resumeSpeech j) =
        some (s.setSpeech j ⟨fmt, language, tSubmit, .ended⟩, [.speech j answer]) →
      Progresses cfg s r :=
    fun answer less taken => progresses_of_speech named here rfl taken (Nat.le_succ _) less
  cases pc with
  | awaiting =>
    obtain ⟨result, future⟩ := Option.isSome_iff_exists.mp (resolved rfl)
    obtain ⟨error, told⟩ : ∃ error, orDefault result.error "" = error := ⟨_, rfl⟩
    by_cases fine : error = ""
    · have taken : poolStep cfg s (.resumeSpeech j) = some
          ({ s.setSpeech j ⟨fmt, language, tSubmit,
              .encoding ((s.server.now - tSubmit) * 1000) result⟩ with
            executor := s.executor.submit ⟨.encode, j⟩ }, [.submitted ⟨.encode, j⟩]) := by
        simp only [poolStep, resumeSpeech, here, future, told, fine, ne_eq, not_true, if_false]
      exact progresses_of_speech named here rfl taken (Executor.countP_waiting_submit ..)
        (by simp [speechSteps])
    · refine answers (.error (.http 500 s!"Synthesis failed: {pyTake error 300}")) (by decide) ?_
      simp only [poolStep, resumeSpeech, here, future, told, fine, ne_eq, not_false_iff, if_true]
  | encoded ms data =>
    cases data with
    | error text =>
      refine answers (.error (.other text)) (by simp [speechSteps]) ?_
      simp only [poolStep, resumeSpeech, here]
    | ok audioData =>
      refine answers (.ok { audioData, synthesisMs := ms, language, fmt })
        (by simp [speechSteps]) ?_
      simp only [poolStep, resumeSpeech, here]
  | encoding => cases free
  | ended => exact absurd rfl running

theorem encode_progresses (h : Reach (pooled cfg threads) uncancelled tr s) {c : Call} {t : ℚ}
    (coding : s.encodes c) (running : s.executor.started? c = some t) :
    ∃ r ∈ requests (serverTrace tr), Progresses cfg s r := by
  obtain ⟨k, j⟩ := c
  obtain ⟨kind, speech, here, inside⟩ := coding
  obtain rfl : k = .encode := kind
  obtain ⟨r, known, named⟩ := (threaded h).known j (by simp [here])
  refine ⟨r, known, ?_⟩
  obtain ⟨fmt, language, tSubmit, pc⟩ := speech
  cases pc with
  | encoding ms result =>
    change s.speech j = _ at here
    -- The text of the exception may be any.
    have ends : ∀ (raised : Option String) (data : Except String AudioBytes),
        internal s (.encode j raised) = true →
        poolStep cfg s (.encode j raised) =
          some ({ s.setSpeech j ⟨fmt, language, tSubmit, .encoded ms data⟩ with
            executor := s.executor.finish ⟨.encode, j⟩ }, [.returned ⟨.encode, j⟩]) →
        Progresses cfg s r := fun raised data inner taken =>
      progresses_of_speech named here inner taken (Nat.le_succ _) (by simp [speechSteps])
    cases audio : result.audio with
    | none =>
      refine ends (some "") (.error "") ?_ ?_
      · simp [internal, here, audio]
      · simp only [poolStep, encode, here, running]
    | some array =>
      refine ends none (.ok ⟨array, fmt, result.sampleRate⟩) ?_ ?_
      · simp [internal, here, audio]
      · simp only [poolStep, encode, here, running, audio]
  | _ => cases inside

/-- Whoever blocks a thread in a `get` has seen the `put` of the request return. -/
private theorem get_after_put (h : Reach (pooled cfg threads) uncancelled tr s) {j : JobId} {t : ℚ}
    (running : ((⟨.get, j⟩ : Call), t) ∈ s.executor.running) : .returned ⟨.put, j⟩ ∈ tr := by
  have holds := threaded h
  have mine : (⟨.get, j⟩ : Call) ∈ s.executor.calls :=
    List.mem_append_left _ (List.mem_map_of_mem running)
  rcases (holds.calls _).mp mine with (drain | call) | ⟨encode, -⟩
  · cases loop : s.server.drain <;> simp [loop, DrainPc.call?] at drain
  · obtain ⟨k, waits, same⟩ := Option.map_eq_some_iff.mp call
    obtain ⟨task, here, kind⟩ := Option.bind_eq_some_iff.mp waits
    obtain rfl : k = .get := congrArg Call.kind same
    have blocked : task.getting?.isSome = true := by
      cases task with
      | collector w r cb at' pc => cases pc <;> simp [Task.call?, Task.getting?] at kind ⊢
      | stream r pc => cases pc <;> simp [Task.call?, Task.getting?] at kind ⊢
      | clone w r pc => cases pc <;> simp [Task.call?, Task.getting?] at kind ⊢
    obtain ⟨t0, blocked⟩ := Option.isSome_iff_exists.mp blocked
    exact holds.puts j (.inr ⟨task, here, Task.wasPut_of_getting blocked⟩)
  · cases encode

/-- With a thread at least, and no handler cancelled, there is always a step for some accepted
request until all have finished; and every thread blocked in a `get` waits for a request whose
`put` has returned. -/
theorem no_deadlock (pool : 1 ≤ threads)
    (distinct : DistinctIds (start cfg.cudaOk cfg.settings.workersPerGpuList))
    (h : Reach (pooled cfg threads) uncancelled tr s) :
    (∀ r ∈ requests (serverTrace tr), ¬ Finished s r →
      ∃ r' ∈ requests (serverTrace tr), Progresses cfg s r') ∧
      ∀ j t, ((⟨.get, j⟩ : Call), t) ∈ s.executor.running → .returned ⟨.put, j⟩ ∈ tr := by
  refine ⟨fun r known unfinished => ?_, fun j t running => get_after_put h running⟩
  have visit := visit_of_reach (server_reach h)
  have holds := threaded h
  by_cases none : s.executor.calls = []
  · have free : ∀ c, ¬ s.server.awaits c := fun c waits => by
      have mine := (holds.calls c).mpr (.inl waits)
      rw [none] at mine
      cases mine
    have loops : s.server.items ≠ [] ∨ (∃ j t, s.server.tasks j = some t ∧ t.finished = false) →
        ∃ r' ∈ requests (serverTrace tr), Progresses cfg s r' := fun work => by
      obtain ⟨e, r', known, advances, thread⟩ :=
        loop_advances (noShadow_of_distinct distinct) visit free work
      exact ⟨r', known, progresses_of_advances advances (.inl thread)⟩
    rcases located visit known with ⟨item, member, -⟩ | ⟨t, task, -⟩
    · exact loops (.inl (List.ne_nil_of_mem member))
    · by_cases running : t.finished = false
      · exact loops (.inr ⟨_, t, task, running⟩)
      · -- The task has ended, so a handler still waits for the result or has it.
        obtain ⟨speech, here, still⟩ : ∃ speech, s.speech r.jobId = some speech ∧
          speech.pc ≠ .ended := by
          by_contra all
          refine unfinished ⟨⟨t, task, by simpa using running⟩, fun speech here => ?_⟩
          by_contra still
          exact all ⟨speech, here, still⟩
        have outside : speech.pc.inThread = false := by
          cases inside : speech.pc.inThread with
          | false => rfl
          | true =>
            have mine := (holds.calls ⟨.encode, r.jobId⟩).mpr (.inr ⟨rfl, speech, here, inside⟩)
            rw [none] at mine
            cases mine
        by_cases waits : speech.pc = .awaiting
        · rcases holds.bridges r.jobId speech here waits with
            ⟨item, member, -⟩ | ⟨k, u, there, carries⟩ | done
          · exact loops (.inl (List.ne_nil_of_mem member))
          · refine loops (.inr ⟨k, u, there, ?_⟩)
            cases u with
            | collector w r cb at' pc =>
              cases cb <;> cases pc <;>
                simp [Task.bridge?, CollectPc.holds, Task.finished] at carries ⊢
            | _ => cases carries
          · exact speech_progresses h here outside still fun _ => done
        · exact speech_progresses h here outside still fun waiting => absurd waiting waits
  · rcases Executor.running_or_start pool none s.server.now with running | ⟨c, executor, start⟩
    · obtain ⟨⟨c, t⟩, rest, list⟩ := List.exists_cons_of_ne_nil running
      have inside : c ∈ s.executor.running.map Prod.fst := by rw [list]; exact List.mem_cons_self
      obtain ⟨t, started⟩ := Executor.started?_isSome inside
      rcases (holds.calls c).mp (List.mem_append_left _ inside) with waits | coding
      · obtain ⟨e, r', known, advances, thread⟩ := call_advances visit waits
        exact ⟨r', known,
          progresses_of_advances advances (thread.imp_right fun same => ⟨c, t, same, started⟩)⟩
      · exact encode_progresses h coding started
    · exact start_progresses h start

end Pool

/-- The only thread is blocked in the `get` of a latent computation on the only worker, and the
drain loop is parked with a job. -/
def blockedThread : List PoolEvent :=
  [.server (.computeLatents "a" "speaker.wav"), .start, .server (.clonePut "a"),
    .server (.resume "a"), .start, .server (.submitTts sayHello noSpeakers "b" false),
    .server .resumeDrain]

theorem blockedThread_runs :
    (exec (pooled oneWorker 1) uncancelled (pooled oneWorker 1).init
      blockedThread).isSome = true := by
  decide +kernel

theorem no_deadlock_blocked_thread :
    (∃ r ∈ requests (serverTrace ((exec (pooled oneWorker 1) uncancelled (pooled oneWorker 1).init
        blockedThread).get blockedThread_runs).2),
      Progresses oneWorker ((exec (pooled oneWorker 1) uncancelled (pooled oneWorker 1).init
        blockedThread).get blockedThread_runs).1 r) ∧
      .returned ⟨.put, "a"⟩ ∈ ((exec (pooled oneWorker 1) uncancelled (pooled oneWorker 1).init
        blockedThread).get blockedThread_runs).2 := by
  have reach := reach_of_exec blockedThread_runs
  obtain ⟨progress, puts⟩ :=
    no_deadlock (Nat.le_refl 1) (by decide +kernel : DistinctIds (start _ _)) reach
  have clone : Request.computeLatents ⟨"a", "speaker.wav", 0⟩ ∈ requests (serverTrace
      ((exec (pooled oneWorker 1) uncancelled (pooled oneWorker 1).init blockedThread).get
        blockedThread_runs).2) := by decide +kernel
  have waits : (((exec (pooled oneWorker 1) uncancelled (pooled oneWorker 1).init blockedThread).get
      blockedThread_runs).1.server.tasks "a").map Task.finished = some false := by decide +kernel
  refine ⟨progress _ clone ?_, puts "a" 0 (by decide +kernel)⟩
  rintro ⟨⟨t, task, ended⟩, -⟩
  have running := (congrArg (Option.map Task.finished) task).symm.trans waits
  simp [ended] at running

end XttsServer.Guarantees
