import XttsServer.Model.Deployment
import XttsServer.Runs.Responses
import XttsServer.Runs.Streams
import XttsServer.Runs.Worker

/-!
The server with processes that run `worker_main` is an instance of the server whose workers
may reply in any way: each of their steps is one of its steps or none, and what a handler has
still to put is never held up.
-/

set_option autoImplicit false
set_option relaxedAutoImplicit false

namespace XttsServer.Model

open XttsServer.Foundations XttsServer.Foundations.Transition

/-! ### What a change does to the processes -/

section Processes

variable {cfg : Config} {P : State → Event → Prop} {s₀ s s' : State} {e : Event} {tr o : List Obs}

/-- A process gets requests from the threads and replies by itself. -/
inductive ProcessChange (s s' : State) (e : Event) (o : List Obs) : Prop
  | same (processes : s'.processes = s.processes) (silent : ∀ v r m, .replied v r m ∉ o)
  | put {r : Request} {w : WorkerRef} (ready : Unput s r w)
      (processes : s'.processes = Function.update s.processes w
        { s.processes w with requestQueue := (s.processes w).requestQueue ++ [r] })
      (silent : ∀ v r m, .replied v r m ∉ o)
  | take {r : Request} {w : WorkerRef} {rest : List Request} (worker : e.ofWorker = true)
      (idle : s.processes w = ⟨r :: rest, none⟩)
      (processes : s'.processes = Function.update s.processes w ⟨rest, some r⟩)
      (silent : ∀ v r m, .replied v r m ∉ o)
  | reply {r : Request} {w : WorkerRef} {m : Message} {rest : List Request}
      {current : Option Request} (worker : e.ofWorker = true)
      (busy : s.processes w = ⟨rest, some r⟩)
      (processes : s'.processes = Function.update s.processes w ⟨rest, current⟩)
      (told : o = [.replied w r m])

private theorem Change.process (change : Change cfg s₀ e s s' o) : ProcessChange s s' e o := by
  cases change with
  | drainPut loop => exact .put (.drain loop) rfl (by simp)
  | clonePut task => exact .put (.clone task) rfl (by simp)
  | workerTake idle event => exact .take (by rw [event]; rfl) idle rfl (by simp)
  | workerChunk event busy =>
    exact .reply (by rw [event]; rfl) busy (by rw [← busy, Function.update_eq_self]) rfl
  | workerReply event busy => exact .reply (by rw [event]; rfl) busy rfl rfl
  | jobTurnedAway _ _ told => rcases told with rfl | rfl <;> exact .same rfl (by simp)
  | @answered _ a answer => exact .same rfl (by cases a <;> simp [Obs.isAnswer] at answer ⊢)
  | _ => exact .same rfl (by simp [marks_eq_map])

theorem queued_silent (h : Visit cfg P tr s) {r : Request} {w : WorkerRef}
    (waiting : r ∈ (s.processes w).requestQueue) : ∀ v m, .replied v r m ∉ tr := by
  induction h using visit_induction with
  | start => simp [State.init] at waiting
  | @change s₀ e s s' tr o before ih meets change =>
    have still : r ∈ (s.processes w).requestQueue → (∀ v m, .replied v r m ∉ o) →
        ∀ v m, .replied v r m ∉ tr ++ o := fun was silent v m told => by
      rcases List.mem_append.mp told with old | new
      · exact ih was v m old
      · exact silent v m new
    cases change.process with
    | same processes silent => exact still (processes ▸ waiting) fun v m => silent v r m
    | @put r' w' ready processes silent =>
      rw [processes] at waiting
      by_cases here : w = w'
      · subst here
        rw [Function.update_self] at waiting
        rcases List.mem_append.mp waiting with was | new
        · exact still was fun v m => silent v r m
        · obtain rfl := List.mem_singleton.mp new
          intro v m told
          rcases List.mem_append.mp told with old | new
          · exact ((handled before).unput r w ready).2 v m old
          · exact silent v r m new
      · rw [Function.update_of_ne here] at waiting
        exact still waiting fun v m => silent v r m
    | @take r' w' rest worker idle processes silent =>
      refine still ?_ fun v m => silent v r m
      rw [processes] at waiting
      by_cases here : w = w'
      · subst here
        rw [Function.update_self] at waiting
        rw [idle]
        exact List.mem_cons_of_mem _ waiting
      · rwa [Function.update_of_ne here] at waiting
    | @reply r' w' m' rest current worker busy processes told =>
      have was : r ∈ (s.processes w).requestQueue := by
        rw [processes] at waiting
        by_cases here : w = w'
        · subst here
          rw [Function.update_self] at waiting
          rw [busy]
          exact waiting
        · rwa [Function.update_of_ne here] at waiting
      -- The reply is to the request at work, and that is another one.
      refine still was fun v m told' => ?_
      rw [told, List.mem_singleton] at told'
      obtain ⟨rfl, rfl, rfl⟩ : v = w' ∧ r = r' ∧ m = m' := by simpa using told'
      have mine : r ∈ (s.processes v).backlog := by simp [Process.backlog, busy]
      have dispatched := (handled before).dispatched
      obtain rfl := dispatched_unique before
        (dispatched w r (List.mem_append_right _ was)) (dispatched v r mine)
      have once := (handled before).once w
      rw [busy] at was once
      exact (List.nodup_cons.mp once).1 was

/-- The process is where it was, with what has been put behind its requests. -/
def Process.Grows (p p' : Process) : Prop := ∃ more, p' = ⟨p.requestQueue ++ more, p.current⟩

private theorem Process.Grows.refl (p : Process) : p.Grows p := ⟨[], by rw [List.append_nil]⟩

private theorem Process.Grows.current {p p' : Process} (h : p.Grows p') :
    p'.current = p.current := by
  obtain ⟨more, rfl⟩ := h
  rfl

/-- Whatever is not a step of a process leaves the request at work to it, and replies to none. -/
private theorem step_leaves_work (taken : step cfg s e = some (s', o))
    (other : e.ofWorker = false) :
    (∀ w, (s.processes w).Grows (s'.processes w)) ∧ ∀ v r m, .replied v r m ∉ o := by
  have changes := step_changes taken
  clear taken
  induction changes with
  | refl => exact ⟨fun w => .refl _, by simp⟩
  | @tail t u tr o _ change ih =>
    have quiet : (∀ v r m, .replied v r m ∉ o) → ∀ v r m, .replied v r m ∉ tr ++ o :=
      fun silent v r m told => by
        rcases List.mem_append.mp told with old | new
        · exact ih.2 v r m old
        · exact silent v r m new
    cases change.process with
    | same processes silent => exact ⟨fun w => processes ▸ ih.1 w, quiet silent⟩
    | @put r w ready processes silent =>
      refine ⟨fun v => ?_, quiet silent⟩
      rw [processes]
      by_cases here : v = w
      · subst here
        obtain ⟨more, grown⟩ := ih.1 v
        exact ⟨more ++ [r], by simp [grown]⟩
      · rw [Function.update_of_ne here]
        exact ih.1 v
    | take worker | reply worker => exact absurd worker (by simp [other])

/-! ### Tasks that have ended -/

def Ended (tasks : JobId → Option Task) (j : JobId) : Prop :=
  (tasks j).any Task.finished = true

private theorem Task.unfinished_of_getting {t : Task} {t0 : ℚ} (blocked : t.getting? = some t0) :
    t.finished = false := by
  cases t with
  | collector w r cb at' pc => cases pc <;> simp_all [Task.getting?, Task.finished]
  | stream r pc => cases pc <;> simp_all [Task.getting?, Task.finished]
  | clone w r pc => cases pc <;> simp_all [Task.getting?, Task.finished]

private theorem Move.unfinished {now : ℚ} {j : JobId} {t t' : Task} {frame : Option Frame}
    (h : Move cfg now j e t t' frame) : t.finished = false := by
  cases h with
  | timeout blocked | error blocked => exact Task.unfinished_of_getting blocked
  | _ => rfl

private theorem Leave.unfinished {j : JobId} {w : WorkerRef} {r : Request} {pc pc' : StreamPc}
    {frame : Option Frame} (h : Leave j e w pc pc' frame) :
    (Task.stream r pc).finished = false := by
  cases h <;> rfl

private theorem Ended.update {tasks : JobId → Option Task} {j k : JobId} {t' : Task}
    (h : Ended tasks j) (runs : (tasks k).any Task.finished = false) :
    Ended (Function.update tasks k (some t')) j := by
  have apart : j ≠ k := by
    rintro rfl
    rw [Ended, runs] at h
    cases h
  rwa [Ended, Function.update_of_ne apart]

private theorem Change.ended (before : Visit cfg P tr s) (change : Change cfg s₀ e s s' o)
    {j : JobId} (h : Ended s.tasks j) : Ended s'.tasks j := by
  have runs : ∀ {k : JobId} {t : Task}, s.tasks k = some t → t.finished = false →
      (s.tasks k).any Task.finished = false := fun task going => by rw [task]; exact going
  have free : ∀ {k : JobId}, s.tasks k = none → (s.tasks k).any Task.finished = false :=
    fun none => by rw [none]; rfl
  cases change with
  | streamQueued fresh => exact h.update (free (tasks_of_fresh before (placed before) fresh))
  | cloneStart _ fresh => exact h.update (free (tasks_of_fresh before (placed before) fresh))
  | @handedOver item w loop =>
    dsimp only
    rcases handedOver_cases before loop with ⟨cb, -, none, tasks⟩ | ⟨waits, tasks⟩ | ⟨-, tasks⟩
    · exact tasks ▸ h.update (free none)
    · exact tasks ▸ h.update (runs waits rfl)
    · exact tasks ▸ h
  | move task move => exact h.update (runs task move.unfinished)
  | getReply task blocked => exact h.update (runs task (Task.unfinished_of_getting blocked))
  | leave task left => exact h.update (runs task left.unfinished)
  | clonePut task | cloneDone _ task | cancelAwaiting _ task | cancelAssigned _ task
  | collected _ task | saveOpen task | saveWrite task | saved task => exact h.update (runs task rfl)
  | _ => exact h

private theorem ended_step (before : Visit cfg anyStep tr s) (taken : step cfg s e = some (s', o))
    {j : JobId} (h : Ended s.tasks j) : Ended s'.tasks j :=
  before.keeps ((step_changes taken).mono fun _ _ _ change => ⟨_, _, trivial, change⟩) h
    fun visit _ change => change.ended visit

end Processes

/-! ### What a handler puts -/

section Handlers

variable {σ κ : Type} {py : Runtime σ κ} {args : WorkerArgs} {r : Request}

def handlerLog (py : Runtime σ κ) (args : WorkerArgs) (world : σ) : Request → List (Act κ)
  | .synthesis r => (handleSynthesis py args r world).log
  | .stream r => (handleStream py args r world).log
  | .computeLatents r => (handleComputeLatents py r world).log

private theorem log_map {α β : Type} (x : Worker σ κ α) (f : α → β) (world : σ) :
    (do let a ← x; return f a : Worker σ κ β) world =
      ⟨(x world).result.map f, (x world).world, (x world).log⟩ := by
  cases result : (x world).result with
  | ok a =>
    rw [Effects.Proc.bind_ok result]
    exact congrArg _ (List.append_nil _)
  | error e => rw [Effects.Proc.bind_error result]; rfl

private theorem handle_log (stats : WorkerStats) (world : σ) :
    (handle py args stats r world).log = handlerLog py args world r := by
  cases r with
  | synthesis r => exact congrArg Effects.Outcome.log (log_map (handleSynthesis py args r) _ world)
  | stream r => exact congrArg Effects.Outcome.log (log_map (handleStream py args r) _ world)
  | computeLatents r =>
    exact congrArg Effects.Outcome.log (log_map (handleComputeLatents py r) (fun _ => stats) world)

theorem handlerLog_served (py : Runtime σ κ) (args : WorkerArgs) (world : σ) (r : Request) :
    Served py args r (handlerLog py args world r) := by
  have served : Served py args r (handle py args {} r world).log := (handle_serves {} r world).2
  rwa [handle_log] at served

/-- What is left of the messages of a handler begins with a chunk, or is the last of them. -/
theorem Served.next {acts : List (Act κ)} (served : Served py args r acts)
    {front rest : List (QueueId × Message)} {q : QueueId} {m : Message}
    (split : puts acts = front ++ (q, m) :: rest) :
    q = r.resultQueue ∧
      ((rest = [] ∧ ∃ outcome, outcome ≠ .raised "" ∧ m = closingMessage r outcome) ∨
        rest ≠ [] ∧ ∃ r' c, r = .stream r' ∧ m = .chunk ⟨r'.jobId, c⟩) := by
  obtain ⟨outcome, told, text⟩ := served.outcome
  rcases List.eq_nil_or_concat rest with rfl | ⟨rest', last, rfl⟩
  · have ends := (List.append_inj' (told.symm.trans split) rfl).2
    obtain ⟨rfl, rfl⟩ := Prod.mk.inj (List.cons.inj ends).1
    exact ⟨rfl, .inl ⟨rfl, outcome, text, rfl⟩⟩
  · rw [told, List.concat_eq_append, ← List.cons_append, ← List.append_assoc] at split
    have chunks := (List.append_inj' split rfl).1
    have inside : (q, m) ∈ chunkPuts r.resultQueue r.jobId (chunksOf py acts) := by
      rw [chunks]
      simp
    obtain ⟨c, member, same⟩ := List.mem_map.mp inside
    obtain ⟨rfl, rfl⟩ := Prod.mk.inj same
    refine ⟨rfl, .inr ⟨by simp, ?_⟩⟩
    cases r with
    | stream r => exact ⟨r, c, rfl, rfl⟩
    | synthesis | computeLatents =>
      have silent := served.streams (by simp)
      simp [chunksOf, silent] at member

end Handlers

/-! ### The processes in the server -/

section Deployed

variable {σ κ : Type} {py : Runtime σ κ} {args : WorkerRef → WorkerArgs} {cfg : Config}
  {threads : Nat} {s s' : DeployedState threads} {e : DeployedEvent σ} {tr o : List PoolObs}

/-- A process at work has something left to put, and all its messages are its handler's. One that is
lost has been at a request whose task had ended. -/
structure Working (py : Runtime σ κ) (args : WorkerRef → WorkerArgs) (tr : List Obs)
    (s : DeployedState threads) : Prop where
  idle : ∀ w, (s.pool.server.processes w).current = none → s.pending w = []
  busy : ∀ w r, (s.pool.server.processes w).current = some r → ∃ world front,
    puts (handlerLog py (args w) world r) = front ++ s.pending w ∧ s.pending w ≠ [] ∧
      putOn tr r.resultQueue = front.map Prod.snd
  replied : ∀ w r m, .replied w r m ∈ tr → ∃ world,
    putOn tr r.resultQueue <+: (puts (handlerLog py (args w) world r)).map Prod.snd ∧
      ((s.pool.server.processes w).current ≠ some r →
        putOn tr r.resultQueue = (puts (handlerLog py (args w) world r)).map Prod.snd)
  lost : ∀ w, s.lost w = true → ∃ r rest, s.pool.server.processes w = ⟨r :: rest, none⟩ ∧
    Ended s.pool.server.tasks r.jobId

private theorem poolStep_leaves_work {a b : PoolState threads} {event : PoolEvent} {told : List Obs}
    (visit : Visit cfg anyStep told a.server) (taken : poolStep cfg a event = some (b, o))
    (other : event.ofWorker = false) :
    (∀ w, (a.server.processes w).Grows (b.server.processes w)) ∧
      (∀ v r m, .replied v r m ∉ serverTrace o) ∧
      ∀ j, Ended a.server.tasks j → Ended b.server.tasks j := by
  rcases poolStep_server taken with ⟨event, told, rfl, stepped, same⟩ | ⟨same, silent⟩
  · rw [same]
    obtain ⟨grows, silent⟩ := step_leaves_work stepped other
    exact ⟨grows, silent, fun j => ended_step visit stepped⟩
  · exact ⟨fun w => same ▸ .refl _, by simp [silent], fun j => same ▸ id⟩

private theorem putOn_silent {told : List Obs} (silent : ∀ v r m, .replied v r m ∉ told)
    (q : QueueId) :
    putOn told q = [] := by
  refine List.filterMap_eq_nil_iff.mpr fun obs member => ?_
  cases obs with
  | replied v r m => exact absurd member (silent v r m)
  | _ => rfl

private theorem Working.silent {tr o : List Obs} (h : Working py args tr s)
    (grows : ∀ w, (s.pool.server.processes w).Grows (s'.pool.server.processes w))
    (silent : ∀ v r m, .replied v r m ∉ o) (pending : s'.pending = s.pending)
    (lost : s'.lost = s.lost)
    (ended : ∀ j, Ended s.pool.server.tasks j → Ended s'.pool.server.tasks j) :
    Working py args (tr ++ o) s' := by
  have current := fun w => (grows w).current
  have same (q : QueueId) : putOn (tr ++ o) q = putOn tr q := by
    rw [putOn, List.filterMap_append, ← putOn, ← putOn, putOn_silent silent, List.append_nil]
  refine ⟨fun w free => ?_, fun w r busy => ?_, fun w r m told => ?_, fun w gone => ?_⟩
  · rw [pending]
    exact h.idle w (current w ▸ free)
  · rw [pending, same]
    exact h.busy w r (current w ▸ busy)
  · rw [same, current w]
    exact h.replied w r m ((List.mem_append.mp told).resolve_right (silent w r m))
  · obtain ⟨r, rest, stuck, gaveUp⟩ := h.lost w (lost ▸ gone)
    obtain ⟨more, grown⟩ := grows w
    exact ⟨r, rest ++ more, by rw [grown, stuck]; rfl, ended _ gaveUp⟩

private theorem Working.take {tr : List Obs} (h : Working py args tr s)
    (visit : Visit cfg anyStep tr s.pool.server) {w : WorkerRef} {r : Request} {rest : List Request}
    (idle : s.pool.server.processes w = ⟨r :: rest, none⟩) (alive : s.lost w = false) (world : σ)
    (stats : WorkerRef → WorkerStats) :
    Working py args tr ⟨s.pool.setProcess w ⟨rest, some r⟩, stats,
      Function.update s.pending w (puts (handlerLog py (args w) world r)), s.lost⟩ := by
  refine ⟨fun v free => ?_, fun v r' busy => ?_, fun v r' m told => ?_, fun v gone => ?_⟩
  · by_cases here : v = w
    · rw [here] at free
      simp [PoolState.setProcess] at free
    · simp only [PoolState.setProcess, Function.update_of_ne here] at free ⊢
      exact h.idle v free
  · by_cases here : v = w
    · subst here
      obtain rfl : r = r' := by simpa [PoolState.setProcess] using busy
      obtain ⟨outcome, told, -⟩ := (handlerLog_served py (args v) world r).outcome
      refine ⟨world, [], by simp, by simp [told], ?_⟩
      refine List.filterMap_eq_nil_iff.mpr fun obs member => ?_
      cases obs with
      | replied v' r' m =>
        refine if_neg fun same => ?_
        have mine : r ∈ (s.pool.server.processes v).requestQueue := by simp [idle]
        have known : r ∈ requests tr := dispatched_request visit
          ((handled visit).dispatched v r (List.mem_append_right _ mine))
        obtain rfl := request_of_queue visit (replied_known visit member) known same
        exact queued_silent visit mine v' m member
      | _ => rfl
    · simp only [PoolState.setProcess, Function.update_of_ne here] at busy ⊢
      exact h.busy v r' busy
  · obtain ⟨world', front, whole⟩ := h.replied v r' m told
    refine ⟨world', front, fun other => whole ?_⟩
    by_cases here : v = w
    · subst here
      simp [idle]
    · simpa only [PoolState.setProcess, Function.update_of_ne here] using other
  · have apart : v ≠ w := by
      rintro rfl
      exact Bool.false_ne_true (alive.symm.trans gone)
    simp only [PoolState.setProcess, Function.update_of_ne apart]
    exact h.lost v gone

/-- The server after a process has put a message, with what becomes of the process. -/
def PoolState.afterPut (a : PoolState threads) (w : WorkerRef) (q : QueueId) (m : Message)
    (p : Process) : PoolState threads :=
  { a with server := { a.server with
      resultQueues := Function.update a.server.resultQueues q (a.server.resultQueues q ++ [m])
      processes := Function.update a.server.processes w p } }

private theorem put_simulated {a : PoolState threads} {w : WorkerRef} {r : Request}
    {queue : List Request} {q : QueueId} {m : Message} {acts : List (Act κ)}
    {front rest : List (QueueId × Message)} (busy : a.server.processes w = ⟨queue, some r⟩)
    (served : Served py (args w) r acts) (split : puts acts = front ++ (q, m) :: rest) :
    ∃ event : PoolEvent, event.ofWorker = true ∧ poolStep cfg a event =
      some (a.afterPut w q m (if rest = [] then ⟨queue, none⟩ else ⟨queue, some r⟩),
        [.server (.replied w r m)]) := by
  obtain ⟨rfl, ⟨rfl, outcome, text, rfl⟩ | ⟨more, r', c, rfl, rfl⟩⟩ := served.next split
  · refine ⟨.server (.workerReply w outcome), rfl, ?_⟩
    simp [poolStep, serverStep, step, workerReply, busy, text, putMessage, Event.threadOf,
      Event.submitted, Event.cancelled, openSpeech, PoolState.afterPut]
  · refine ⟨.server (.workerChunk w c), rfl, ?_⟩
    have same : Function.update a.server.processes w ⟨queue, some (.stream r')⟩ =
        a.server.processes := by
      rw [← busy, Function.update_eq_self]
    simp [poolStep, serverStep, step, workerChunk, busy, putMessage, Event.threadOf,
      Event.submitted, Event.cancelled, openSpeech, PoolState.afterPut, more, same,
      Request.resultQueue]

private theorem Working.put {tr : List Obs} (h : Working py args tr s)
    (visit : Visit cfg anyStep tr s.pool.server) {w : WorkerRef} {r : Request}
    {queue : List Request} (busy : s.pool.server.processes w = ⟨queue, some r⟩) {q : QueueId}
    {m : Message} {rest : List (QueueId × Message)} (pending : s.pending w = (q, m) :: rest) :
    Working py args (tr ++ [.replied w r m])
      { s with
        pool := s.pool.afterPut w q m (if rest = [] then ⟨queue, none⟩ else ⟨queue, some r⟩)
        pending := Function.update s.pending w rest } := by
  obtain ⟨world, front, split, -, put⟩ := h.busy w r (by rw [busy])
  rw [pending] at split
  have served := handlerLog_served py (args w) world r
  have queued : q = r.resultQueue := (served.next split).1
  have known : ∀ {v r'}, (s.pool.server.processes v).current = some r' → r' ∈ requests tr :=
    fun {v r'} current => dispatched_request visit
      ((handled visit).dispatched v r' (by simp [Process.backlog, current]))
  have now : putOn (tr ++ [.replied w r m]) r.resultQueue = (front ++ [(q, m)]).map Prod.snd := by
    simp [put]
  have others : ∀ {r'}, r' ∈ requests tr → r' ≠ r →
      putOn (tr ++ [.replied w r m]) r'.resultQueue = putOn tr r'.resultQueue :=
        fun {r'} mine other => by
    have apart : r.resultQueue ≠ r'.resultQueue := fun same =>
      other (request_of_queue visit (known (v := w) (by rw [busy])) mine same).symm
    simp [apart]
  have onlyHere : ∀ {v}, (s.pool.server.processes v).current = some r → v = w := fun {v} current =>
    dispatched_unique visit ((handled visit).dispatched v r (by simp [Process.backlog, current]))
      ((handled visit).dispatched w r (by simp [Process.backlog, busy]))
  refine ⟨fun v free => ?_, fun v r' current => ?_, fun v r' m' told => ?_, fun v gone => ?_⟩
  · by_cases here : v = w
    · subst here
      by_cases last : rest = []
      · simp only [Function.update_self, last]
      · simp [PoolState.afterPut, last] at free
    · simp only [PoolState.afterPut, Function.update_of_ne here] at free ⊢
      exact h.idle v free
  · by_cases here : v = w
    · subst here
      by_cases last : rest = []
      · simp [PoolState.afterPut, last] at current
      · obtain rfl : r = r' := by simpa [PoolState.afterPut, last] using current
        refine ⟨world, front ++ [(q, m)], ?_, ?_, now⟩
        · simp only [Function.update_self]
          rw [split, List.append_assoc]
          rfl
        · simpa only [Function.update_self] using last
    · simp only [PoolState.afterPut, Function.update_of_ne here] at current ⊢
      have other : r' ≠ r := fun same => here (onlyHere (same ▸ current))
      rw [others (known current) other]
      exact h.busy v r' current
  · by_cases same : r' = r
    · subst same
      obtain rfl : v = w := by
        rcases List.mem_append.mp told with old | new
        · exact dispatched_unique visit ((handled visit).replied v r' m' old).1
            ((handled visit).dispatched w r' (by simp [Process.backlog, busy]))
        · simp only [List.mem_singleton, Obs.replied.injEq] at new
          exact new.1
      refine ⟨world, by rw [now, split, List.map_append, List.map_append]; simp, fun other => ?_⟩
      have last : rest = [] := by
        by_contra more
        simp [PoolState.afterPut, more] at other
      rw [now, split, last]
    · have old : .replied v r' m' ∈ tr := by simpa [same] using told
      rw [others (replied_known visit old) same]
      obtain ⟨world', front', whole⟩ := h.replied v r' m' old
      refine ⟨world', front', fun other => whole ?_⟩
      by_cases here : v = w
      · subst here
        simpa [busy] using Ne.symm same
      · simpa only [PoolState.afterPut, Function.update_of_ne here] using other
  · obtain ⟨r', rest', stuck, gaveUp⟩ := h.lost v gone
    have apart : v ≠ w := by
      rintro rfl
      simp [busy] at stuck
    simp only [PoolState.afterPut, Function.update_of_ne apart]
    exact ⟨r', rest', stuck, gaveUp⟩

theorem putNext_eq {w : WorkerRef} {r : Request} {queue : List Request} {q : QueueId} {m : Message}
    {rest : List (QueueId × Message)} (busy : s.pool.server.processes w = ⟨queue, some r⟩)
    (pending : s.pending w = (q, m) :: rest) :
    putNext s w = some ({ s with
      pool := s.pool.afterPut w q m (if rest = [] then ⟨queue, none⟩ else ⟨queue, some r⟩)
      pending := Function.update s.pending w rest }, [.server (.replied w r m)]) := by
  simp only [putNext, busy, pending]
  rfl

theorem deployedStep_works (visit : Visit cfg anyStep (serverTrace tr) s.pool.server)
    (h : Working py args (serverTrace tr) s) (taken : deployedStep py args cfg s e = some (s', o)) :
    ((∃ event, (e = .pool event ∨ event.ofWorker = true) ∧
      poolStep cfg s.pool event = some (s'.pool, o)) ∨ s'.pool = s.pool ∧ o = []) ∧
      Working py args (serverTrace (tr ++ o)) s' := by
  rw [serverTrace_append]
  cases e with
  | pool event =>
    simp only [deployedStep] at taken
    split_ifs at taken with other
    obtain ⟨⟨a, told⟩, stepped, same⟩ := Option.map_eq_some_iff.mp taken
    obtain ⟨rfl, rfl⟩ := Prod.mk.inj same
    obtain ⟨grows, silent, ended⟩ := poolStep_leaves_work visit stepped (by simpa using other)
    exact ⟨.inl ⟨event, .inl rfl, stepped⟩, h.silent grows silent rfl rfl ended⟩
  | take w world =>
    simp only [deployedStep, takeRequest] at taken
    split at taken
    · rename_i r rest alive idle
      obtain ⟨rfl, rfl⟩ := Prod.mk.inj (Option.some.inj taken)
      refine ⟨.inl ⟨.server (.workerTake w), .inr rfl, ?_⟩, ?_⟩
      · simp [poolStep, serverStep, step, workerTake, idle, Event.threadOf, Event.submitted,
          Event.cancelled, openSpeech, PoolState.setProcess]
      · rw [handle_log]
        simpa using h.take visit idle alive world _
    · cases taken
  | getRaises w =>
    simp only [deployedStep, getRaises] at taken
    split at taken
    · rename_i r rest alive idle
      split_ifs at taken with dropped
      obtain ⟨rfl, rfl⟩ := Prod.mk.inj (Option.some.inj taken)
      have gaveUp : Ended s.pool.server.tasks r.jobId := (Bool.and_eq_true _ _ ▸ dropped).1
      refine ⟨.inr ⟨rfl, rfl⟩, ?_⟩
      simp only [serverTrace, List.filterMap_nil, List.append_nil]
      refine ⟨h.idle, h.busy, h.replied, fun v gone => ?_⟩
      by_cases here : v = w
      · exact ⟨r, rest, here ▸ idle, gaveUp⟩
      · exact h.lost v (by simpa only [Function.update_of_ne here] using gone)
    · cases taken
  | put w =>
    cases process : s.pool.server.processes w with
    | mk queue current =>
    cases current with
    | none => simp [deployedStep, putNext, process] at taken
    | some r =>
      obtain ⟨world, front, split, some_left, -⟩ := h.busy w r (by rw [process])
      obtain ⟨⟨q, m⟩, rest, pending⟩ := List.exists_cons_of_ne_nil some_left
      rw [deployedStep, putNext_eq process pending] at taken
      obtain ⟨rfl, rfl⟩ := Prod.mk.inj (Option.some.inj taken)
      rw [pending] at split
      obtain ⟨event, worker, stepped⟩ := put_simulated process
        (handlerLog_served py (args w) world r) split
      exact ⟨.inl ⟨event, .inr worker, stepped⟩, h.put visit process pending⟩

theorem deployed_works {P : DeployedState threads → DeployedEvent σ → Prop}
    (h : Reach (deployed py args cfg threads) P tr s) :
    Reach (pooled cfg threads) anyStep tr s.pool ∧ Working py args (serverTrace tr) s := by
  induction h with
  | refl =>
    refine ⟨.refl, fun w _ => rfl, fun w r busy => ?_, fun w r m told => ?_, fun w gone => ?_⟩
    · cases busy
    · cases told
    · cases gone
  | tail _ _ taken ih =>
    obtain ⟨⟨event, -, stepped⟩ | ⟨same, rfl⟩, works⟩ :=
      deployedStep_works (pool_visits ih.1) ih.2 taken
    · exact ⟨ih.1.tail (e := event) trivial stepped, works⟩
    · exact ⟨by simpa [same] using ih.1, works⟩

/-- The processes decide which replies there are, not what they do to the server. -/
theorem deployed_simulates (py : Runtime σ κ) (args : WorkerRef → WorkerArgs) (cfg : Config)
    (threads : Nat) :
    Simulation (deployed py args cfg threads) anyStep (pooled cfg threads) anyStep
      DeployedState.pool some where
  init := rfl
  step := by
    intro tr s s' e o before _ taken
    obtain ⟨reach, works⟩ := deployed_works before
    rw [List.filterMap_some]
    obtain ⟨⟨event, -, stepped⟩ | ⟨same, rfl⟩, -⟩ :=
      deployedStep_works (pool_visits reach) works taken
    · exact .single trivial stepped
    · exact same ▸ .refl

/-- A run that keeps the server's steps to `Q` is such a run of the server, if the steps of workers
are all in `Q`. -/
theorem deployed_server {P : DeployedState threads → DeployedEvent σ → Prop}
    {Q : State → Event → Prop}
    (keeps : ∀ {s event}, P s (.pool (.server event)) → Q s.pool.server event)
    (own : ∀ {a event}, event.ofWorker = true → Q a event)
    (h : Reach (deployed py args cfg threads) P tr s) :
    Reach (server cfg) Q (serverTrace tr) s.pool.server := by
  induction h with
  | refl => exact .refl
  | @tail t u tr e o earlier meets taken ih =>
    obtain ⟨reach, works⟩ := deployed_works earlier
    obtain ⟨⟨event, origin, stepped⟩ | ⟨same, rfl⟩, -⟩ :=
      deployedStep_works (pool_visits reach) works taken
    swap
    · simpa [same] using ih
    rw [serverTrace_append]
    rcases poolStep_server stepped with ⟨event, told, rfl, step, same⟩ | ⟨same, silent⟩
    · rw [same]
      refine ih.tail (e := event) ?_ step
      rcases origin with rfl | worker
      · exact keeps meets
      · exact own worker
    · rw [same, silent, List.append_nil]
      exact ih

end Deployed

end XttsServer.Model
