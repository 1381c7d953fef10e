import XttsServer.Guarantees.Slots
import XttsServer.Runs.Delivery

/-!
What an accepted job is told of its outcome: once, by the worker that it was
dispatched to or by its own collector, and for good.
-/

set_option autoImplicit false
set_option relaxedAutoImplicit false

namespace XttsServer.Guarantees

open XttsServer.Model XttsServer.Foundations.Transition

variable {cfg : Config} {P : State → Event → Prop} {s s' s₀ : State} {e : Event}
  {tr tr' o : List Obs}

/-- The result with which `_collect_result` itself reports a timeout or an exception. -/
def OwnError (j : JobId) (result : SynthesisResult) : Prop :=
  ∃ text, result = { jobId := j, audio := none, error := some text }

/-- The callback belongs to the accepted job `r`, whose one dispatch went to `w`, and is given
the reply of `w` to this very request, or an error of the collector. -/
structure OwnCompletion (tr : List Obs) (cb : OnComplete) (w : WorkerRef) (result : SynthesisResult)
    (item : QueuedItem) (r : SynthesisRequest) : Prop where
  accepted : .accepted item ∈ tr
  request : item.request = .synthesis r
  callback : item.onComplete = some cb
  named : cb.jobId = r.jobId
  dispatched : ∀ v, .dispatched (.synthesis r) v ∈ tr ↔ v = w
  job : result.jobId = r.jobId
  source : .replied w (.synthesis r) (.result result) ∈ tr ∨ OwnError r.jobId result

structure CompletedOnce (cfg : Config) (tr : List Obs) (s : State) : Prop where
  /-- No two calls are for the same job. -/
  once : ((completions tr).map OnComplete.jobId).Nodup
  own : ∀ cb w result, .completed cb w result ∈ tr →
    ∃ item r, OwnCompletion tr cb w result item r
  /-- A reply touches nothing but its worker process and its result queue. -/
  frame : ∀ e s' o w r m, step cfg s e = some (s', o) → .replied w r m ∈ o →
    ∃ processes queue, s' = { s with
      processes, resultQueues := Function.update s.resultQueues r.resultQueue queue }
  /-- Once the callback was called, nobody looks at that result queue any more. -/
  late : ∀ cb w result item, .completed cb w result ∈ tr → .accepted item ∈ tr →
    item.onComplete = some cb → ∀ tr' s', Run (server cfg) anyStep s tr' s' →
      ∀ m, .fetched item.request.resultQueue m ∉ tr'

private theorem mem_completions {cb : OnComplete} :
    cb ∈ completions tr ↔ ∃ w result, .completed cb w result ∈ tr := by
  rw [completions, List.mem_filterMap]
  constructor
  · rintro ⟨x, member, same⟩
    cases x <;> simp at same
    subst same
    exact ⟨_, _, member⟩
  · rintro ⟨w, result, member⟩
    exact ⟨_, member, rfl⟩

private theorem completed_now (change : Change cfg s₀ e s s' o) {cb : OnComplete} {w : WorkerRef}
    {result : SynthesisResult} (told : .completed cb w result ∈ o) :
    ∃ j r t t0 outcome, s.tasks j = some (.collector w r cb t (.got t0 outcome)) ∧
      collectedResult cfg r.jobId outcome = some result ∧ completions o = [cb] ∧
      Settled s'.tasks j := by
  cases change with
  | @collected j w' r cb' t t0 outcome result' workers drain i next _ _ statuses _ task
      value _ call =>
    obtain ⟨rfl, rfl, rfl⟩ : cb = cb' ∧ w = w' ∧ result = result' := by simpa using told
    refine ⟨j, r, t, t0, outcome, task, value, by simp [Function.comp_def], ?_⟩
    exact ⟨_, Function.update_self .., by simp [Task.settled, onComplete_holds call]⟩
  | jobTurnedAway _ _ told' => rcases told' with rfl | rfl <;> simp at told
  | @answered _ a answer => cases a <;> simp [Obs.isAnswer] at answer told
  | _ => simp [marks_eq_map] at told

/-- The jobs whose callback was called are those with a settled collector, each once. -/
private theorem completions_settled (h : Visit cfg P tr s) :
    ((completions tr).map OnComplete.jobId).Nodup ∧
      ∀ cb ∈ completions tr, Settled s.tasks cb.jobId := by
  induction h using visit_induction with
  | start => exact ⟨List.nodup_nil, by simp⟩
  | @change s₀ e s s' tr o before ih meets change =>
    have split : completions (tr ++ o) = completions tr ++ completions o := List.filterMap_append
    obtain ⟨once, settled⟩ := ih
    have kept : ∀ cb ∈ completions tr, Settled s'.tasks cb.jobId :=
      fun cb called => change.settled before (settled cb called)
    cases found : completions o with
    | nil =>
      rw [split, found, List.append_nil]
      exact ⟨once, kept⟩
    | cons cb rest =>
      obtain ⟨w, result, told⟩ := mem_completions.mp
        (found ▸ List.mem_cons_self : cb ∈ completions o)
      obtain ⟨j, r, t, t0, outcome, task, -, one, now_settled⟩ := completed_now change told
      obtain rfl := (collector_serves before task).1
      have new : ∀ cb' ∈ completions tr, cb'.jobId ≠ cb.jobId := by
        intro cb' called same
        obtain ⟨u, there, ended⟩ := settled cb' called
        rw [same, task] at there
        obtain rfl := Option.some.inj there
        simp [Task.settled, CollectPc.holds] at ended
      rw [split, one]
      refine ⟨?_, fun cb' called => ?_⟩
      · rw [List.map_append, List.nodup_append]
        refine ⟨once, List.nodup_singleton _, ?_⟩
        rintro a ha b hb rfl
        obtain ⟨cb', called, same⟩ := List.mem_map.mp ha
        obtain rfl : a = cb.jobId := by simpa using hb
        exact new cb' called same
      · rcases List.mem_append.mp called with old | last
        · exact kept cb' old
        · rw [List.mem_singleton.mp last]
          exact now_settled

/-- What the callback is given comes from its own worker or from its own collector. -/
theorem own_completion (h : Visit cfg P tr s) {cb : OnComplete} {w : WorkerRef}
    {result : SynthesisResult} (told : .completed cb w result ∈ tr) :
    ∃ item r, OwnCompletion tr cb w result item r := by
  obtain ⟨before, a, b, o, after, there, ⟨s₀, e, meets, change⟩, told', -, parts⟩ :=
    h.exists_change told
  have early : before ⊆ tr := fun x hx => by
    rw [parts]
    exact List.mem_append_left _ (List.mem_append_left _ hx)
  obtain ⟨j, request, t, t0, outcome, task, value, -, -⟩ := completed_now change told'
  obtain ⟨named, id, r, rfl⟩ := collector_serves there task
  obtain ⟨item, drained, same, callback⟩ := ((placed there).serves j _ task).origin
  have dispatched : .dispatched (.synthesis r) w ∈ tr :=
    same ▸ drained_dispatched h (early drained)
  have accept : item ∈ accepted tr := drained_accepted h (early drained)
  refine ⟨item, r, mem_accepted.mp accept, same, callback, named.trans id.symm, ?_, ?_, ?_⟩
  · exact fun v => ⟨fun again => dispatched_unique h again dispatched, fun eq => eq ▸ dispatched⟩
  · cases outcome with
    | item m =>
      obtain ⟨v, reply⟩ := tasks_heard there j _ task
      cases m with
      | result x =>
        obtain rfl : x = result := by simpa [collectedResult] using value
        exact ((handled there).replied v _ _ reply).2
      | _ => simp [collectedResult] at value
    | empty | error =>
      simp only [collectedResult, Option.some.injEq] at value
      exact value ▸ rfl
  · cases outcome with
    | item m =>
      obtain ⟨v, reply⟩ := tasks_heard there j _ task
      cases m with
      | result x =>
        obtain rfl : x = result := by simpa [collectedResult] using value
        have replied : .replied v (.synthesis r) (.result x) ∈ tr := early reply
        have here := dispatched_unique h ((handled h).replied v _ _ replied).1 dispatched
        exact .inl (here ▸ replied)
      | _ => simp [collectedResult] at value
    | empty | error =>
      simp only [collectedResult, Option.some.injEq] at value
      exact .inr ⟨_, value.symm⟩

private theorem replied_now (change : Change cfg s₀ e s s' o) {w : WorkerRef} {r : Request}
    {m : Message} (told : .replied w r m ∈ o) :
    (∃ chunk, e = .workerChunk w chunk) ∨ ∃ outcome, e = .workerReply w outcome := by
  cases change with
  | workerChunk event =>
    obtain ⟨rfl, -⟩ : w = _ ∧ r = _ ∧ m = _ := by simpa using told
    exact .inl ⟨_, event⟩
  | workerReply event =>
    obtain ⟨rfl, -⟩ : w = _ ∧ r = _ ∧ m = _ := by simpa using told
    exact .inr ⟨_, event⟩
  | jobTurnedAway _ _ told' => rcases told' with rfl | rfl <;> simp at told
  | @answered _ a answer => cases a <;> simp [Obs.isAnswer] at answer told
  | _ => simp [marks_eq_map] at told

private theorem reply_frame (taken : step cfg s e = some (s', o)) {w : WorkerRef} {r : Request}
    {m : Message} (told : .replied w r m ∈ o) : ∃ processes queue, s' = { s with
      processes, resultQueues := Function.update s.resultQueues r.resultQueue queue } := by
  obtain ⟨_, _, _, _, -, -, change, told', -⟩ := (step_changes taken).exists_change told
  rcases replied_now change told' with ⟨chunk, rfl⟩ | ⟨outcome, rfl⟩
  · simp only [step, workerChunk] at taken
    split at taken
    · obtain ⟨rfl, rfl⟩ := Prod.mk.inj (Option.some.inj taken)
      obtain ⟨rfl, -⟩ : r = _ ∧ m = _ := by simpa using told
      exact ⟨_, _, rfl⟩
    · cases taken
  · simp only [step, workerReply] at taken
    split at taken
    · split_ifs at taken
      obtain ⟨rfl, rfl⟩ := Prod.mk.inj (Option.some.inj taken)
      obtain ⟨rfl, -⟩ : r = _ ∧ m = _ := by simpa [putMessage] using told
      exact ⟨_, _, rfl⟩
    · cases taken

private theorem fetched_now (before : Visit cfg P tr s) (change : Change cfg s₀ e s s' o)
    {r : Request} {m : Message} (known : r ∈ requests tr) (told : .fetched r.resultQueue m ∈ o) :
    ¬ Settled s.tasks r.jobId := by
  cases change with
  | @getReply j t t0 m' rest task blocked =>
    obtain ⟨queue, -⟩ : r.resultQueue = t.request.resultQueue ∧ m = m' := by simpa using told
    have serves := (placed before).serves j t task
    obtain rfl : r = t.role.request :=
      request_of_queue before known serves.known (queue.trans (by rw [t.request_role]))
    rintro ⟨u, there, settled⟩
    rw [serves.named, task] at there
    rw [← Option.some.inj there, Task.not_settled_of_getting blocked] at settled
    cases settled
  | jobTurnedAway _ _ told' => rcases told' with rfl | rfl <;> simp at told
  | @answered _ a answer => cases a <;> simp [Obs.isAnswer] at answer told
  | _ => simp [marks_eq_map] at told

/-- After its callback nothing takes a message from the request's result queue. -/
private theorem never_fetched (h : Visit cfg P tr s) (run : Chain (Allowed cfg P) s tr' s')
    {r : Request} (known : r ∈ requests tr) (settled : Settled s.tasks r.jobId) (m : Message) :
    .fetched r.resultQueue m ∉ tr' := by
  intro told
  obtain ⟨before, a, b, o, -, there, ⟨s₀, e, -, change⟩, told', -⟩ := run.exists_change told
  have visit := h.trans there
  have still : Settled a.tasks r.jobId :=
    h.keeps there settled fun visit _ change => change.settled visit
  have known' : r ∈ requests (tr ++ before) := by
    have split : requests (tr ++ before) = requests tr ++ requests before := List.filterMap_append
    exact split ▸ List.mem_append_left _ known
  exact fetched_now visit change known' told' still

/-- In every run each accepted job is called back at most once, with its own reply or an error
of its own collector, and later replies reach nobody. -/
theorem completed_once (h : Reach (server cfg) anyStep tr s) : CompletedOnce cfg tr s := by
  have visit := visit_of_reach h
  obtain ⟨once, settled⟩ := completions_settled visit
  refine ⟨once, fun _ _ _ => own_completion visit, fun _ _ _ _ _ _ taken => reply_frame taken, ?_⟩
  intro cb w result item called accept callback tr' s' run
  have own : cb.jobId = item.request.jobId := by
    have kind := proper_of_accepted visit (mem_accepted.mpr accept)
    cases kind with
    | job own =>
      obtain rfl : _ = cb := by simpa [jobItem] using callback
      rcases own with rfl | ⟨fmt, rfl⟩ <;> rfl
    | stream => simp [streamItem] at callback
  refine never_fetched visit (chain_of_run run) (request_mem_requests (mem_accepted.mpr accept)) ?_
  exact own ▸ settled cb (mem_completions.mpr ⟨w, result, called⟩)

/-- The first job's collector gives up, its worker replies late and then serves the second job. -/
def lateReply : List Event :=
  heldJob ++ [.resume "a", .workerTake 0, .getError "a" "EOFError", .resume "a", .resumeDrain,
    .drainPut, .resumeDrain, .resume "b", .workerReply 0 (.arrays ⟨[1], [0]⟩ ⟨[], []⟩),
    .workerTake 0, .workerReply 0 (.arrays ⟨[1], [1]⟩ ⟨[], []⟩), .getReply "b", .resume "b"]

private theorem lateReply_runs : (runOf oneWorker lateReply).isSome = true := by decide +kernel

theorem completed_once_late_reply :
    CompletedOnce oneWorker ((runOf oneWorker lateReply).get lateReply_runs).2
      ((runOf oneWorker lateReply).get lateReply_runs).1 :=
  completed_once (reach_of_exec lateReply_runs)

end XttsServer.Guarantees
