import XttsServer.Guarantees.Completion
import XttsServer.Guarantees.Endpoints
import XttsServer.Guarantees.Failures
import XttsServer.Guarantees.Lifecycle
import XttsServer.Runs.Batches
import XttsServer.Runs.Files

/-!
What becomes of an accepted batch: each of its items has its own entry in the
response, its own request in the queue and its own callback.
-/

set_option autoImplicit false
set_option relaxedAutoImplicit false

namespace XttsServer.Guarantees

open XttsServer.Model XttsServer.Foundations XttsServer.Foundations.Transition

variable {cfg : Config} {P : State → Event → Prop} {s s' : State} {e : Event}
  {tr o : List Obs} {j : JobId}

/-- The job in whose callback the event loop or the thread in `save_audio` goes on. -/
def callbackOf : Event → Option JobId
  | .resume j => some j
  | .saveOpen j => some j
  | .saveWrite j => some j
  | .saveRaise j => some j
  | _ => none

/-- The item at position `i`, its entry in the response and its place in the queue. -/
structure Wired (cfg : Config) (s s' : State) (speakers : SpeakerView) (response : BatchResponse)
    (i : Nat) (item : BatchItem) (r : SynthesisRequest) : Prop where
  entry : response.jobs[i]? = some
    { index := i, jobId := r.jobId, status := "pending", pollUrl := s!"/v1/jobs/{r.jobId}" }
  queued : s'.queue[s.queue.length + i]? =
    some (jobItem s.now r (.store r.jobId item.format cfg.settings.outputsDir))
  text : r.text = item.text
  language : r.language = orDefault item.language cfg.settings.defaultLanguage
  latents : ∃ speakerId, resolveSpeaker speakers item.speaker =
    .ok (r.gptCondLatent, r.speakerEmbedding, speakerId)
  params : r.params = item.params

/-- The record of the job is done, with its audio where it says. -/
structure DoneWith (tr : List Obs) (s : State) (item : BatchItem) (r : SynthesisRequest)
    (path : Path) : Prop where
  record : ∃ job, s.jobs.get? r.jobId = some job ∧ job.status = .done ∧ job.audioPath = some path
  audio : ∃ w result audio, .replied w (.synthesis r) (.result result) ∈ tr ∧
    result.audio = some audio ∧ s.files path = some (.complete audio item.format result.sampleRate)

/-- The collector has its result and has not ended its callback. -/
def hasResult : CollectPc → Bool
  | .got _ _ => true
  | .saving _ _ => true
  | .saved => true
  | _ => false

/-- The callback of the item, in a run that has come to `s`. -/
structure OwnCallback (cfg : Config) (tr : List Obs) (s : State) (item : BatchItem)
    (r : SynthesisRequest) : Prop where
  /-- It is given what was answered to its own request, or an error of its own collector. -/
  called : ∀ cb w result, .completed cb w result ∈ tr → cb.jobId = r.jobId →
    cb = .store r.jobId item.format cfg.settings.outputsDir ∧
      (.replied w (.synthesis r) (.result result) ∈ tr ∨ OwnError r.jobId result)
  /-- It changes no record but that of its job, and no file but its own. -/
  frame : ∀ e s' o, callbackOf e = some r.jobId → step cfg s e = some (s', o) →
    (∀ k, k ≠ r.jobId → s'.jobs.get? k = s.jobs.get? k) ∧
      ∀ p, p ≠ audioPath cfg.settings.outputsDir r.jobId item.format → s'.files p = s.files p
  /-- Nobody else moves its collector on. -/
  alone : ∀ e s' o w request cb t pc, callbackOf e ≠ some r.jobId → step cfg s e = some (s', o) →
    s.tasks r.jobId = some (.collector w request cb t pc) → hasResult pc = true →
    s'.tasks r.jobId = some (.collector w request cb t pc)
  fetches : ∀ w request cb t t0 m rest,
    s.tasks r.jobId = some (.collector w request cb t (.getting t0)) →
    s.resultQueues r.resultQueue = m :: rest →
    ∃ s', step cfg s (.getReply r.jobId) = some (s', [.fetched r.resultQueue m]) ∧
      s'.tasks r.jobId = some (.collector w request cb t (.got t0 (.item m)))
  /-- A result with audio and without an error leaves the job running, and is to be saved. -/
  good : ∀ w request cb t t0 result,
    s.tasks r.jobId = some (.collector w request cb t (.got t0 (.item (.result result)))) →
    result.audio ≠ none → reportsError result = false →
    ∃ s' o, step cfg s (.resume r.jobId) = some (s', o) ∧ .completed cb w result ∈ o ∧
      s'.tasks r.jobId = some (.collector w request cb t (.saving result false)) ∧
      ∃ job, s'.jobs.get? r.jobId = some job ∧ job.status = .running
  opens : ∀ w request cb t result,
    s.tasks r.jobId = some (.collector w request cb t (.saving result false)) →
    result.audio ≠ none →
    ∃ s', step cfg s (.saveOpen r.jobId) = some (s', []) ∧
      s'.tasks r.jobId = some (.collector w request cb t (.saving result true))
  writes : ∀ w request cb t result audio,
    s.tasks r.jobId = some (.collector w request cb t (.saving result true)) →
    result.audio = some audio →
    ∃ s', step cfg s (.saveWrite r.jobId) = some (s', []) ∧
      s'.tasks r.jobId = some (.collector w request cb t .saved) ∧
      s'.files (audioPath cfg.settings.outputsDir r.jobId item.format) =
        some (.complete audio item.format result.sampleRate)
  /-- Once `save_audio` has returned, it leaves the job done. -/
  done : ∀ w request cb t, s.tasks r.jobId = some (.collector w request cb t .saved) →
    ∃ s', step cfg s (.resume r.jobId) = some (s', [.marked r.jobId .done]) ∧
      DoneWith tr s' item r (audioPath cfg.settings.outputsDir r.jobId item.format)

structure BatchWired (cfg : Config) (tr : List Obs) (s s' : State) (items : List BatchItem)
    (speakers : SpeakerView) (response : BatchResponse) : Prop where
  total : response.total = items.length ∧ response.jobs.length = items.length
  distinct : (response.jobs.map BatchJobEntry.jobId).Nodup
  block : s.queue <+: s'.queue ∧ s'.queue.length = s.queue.length + items.length
  items : ∀ i item, items[i]? = some item → ∃ r, Wired cfg s s' speakers response i item r ∧
    ∀ tr' t, Run (server cfg) anyStep s' tr' t → OwnCallback cfg (tr ++ tr') t item r

/-! ### The callback -/

private theorem submits_of_callback (mine : callbackOf e = some j) :
    e.submits ≠ true ∧ e.makeQueueRaises ≠ true := by
  cases e with
  | resume | saveOpen | saveWrite | saveRaise => simp [Event.submits, Event.makeQueueRaises]
  | _ => cases mine

/-- A callback goes on with its own record and its own file. -/
private theorem callback_frame (before : Visit cfg P tr s) (mine : callbackOf e = some j)
    (change : Change cfg s e s s' o) :
    (∀ k, k ≠ j → s'.jobs.get? k = s.jobs.get? k) ∧
      ∀ p, ¬ Destined cfg tr j p → s'.files p = s.files p := by
  cases change with
  | @collected k w r cb t t0 outcome result workers drain i next jobs futures statuses event task
      value slot call =>
    subst event
    obtain rfl : k = j := Option.some.inj mine
    refine ⟨fun i other => ?_, fun _ _ => rfl⟩
    cases cb with
    | bridge b =>
      have jobs_eq := congrArg (fun r => r.1.1.jobs) call
      simp only [onComplete] at jobs_eq
      exact congrArg (Dict.get? · i) jobs_eq.symm
    | store b fmt dir =>
      obtain rfl : b = k := (collector_serves before task).1
      obtain ⟨handle, found⟩ := collector_handle before task slot
      rcases onComplete_store found call with ⟨-, rfl, -⟩ | ⟨-, ⟨error, rfl⟩, -⟩
      · exact (Dict.get?_modify ..).trans (if_neg other)
      · exact (Dict.get?_modify ..).trans ((if_neg other).trans
          ((Dict.get?_modify ..).trans (if_neg other)))
  | saved task event =>
    subst event
    obtain rfl : _ = j := Option.some.inj mine
    obtain rfl := (collector_serves before task).1
    exact ⟨fun i other => (Dict.get?_modify ..).trans (if_neg other), fun _ _ => rfl⟩
  | saveOpen task _ event | saveWrite task _ event =>
    subst event
    obtain rfl : _ = j := Option.some.inj mine
    obtain ⟨rfl, rfl, own⟩ := Destined.of_collector before task
    refine ⟨fun _ _ => rfl, fun p foreign => Function.update_of_ne ?_ _ _⟩
    rintro rfl
    exact foreign own
  | jobQueued _ _ submits | jobTurnedAway _ _ _ submits | batchRefused _ _ _ submits =>
    exact absurd submits (submits_of_callback mine).1
  | jobRaised _ raises => exact absurd raises (submits_of_callback mine).2
  | deleteAfterSend _ event | evict event =>
    subst event
    cases mine
  | _ => exact ⟨fun _ _ => rfl, fun _ _ => rfl⟩

private theorem own_collector (h : Visit cfg P tr s) {now : ℚ} {r : SynthesisRequest}
    {fmt : AudioFormat} {w : WorkerRef} {request : Request} {cb : OnComplete} {at' : ℚ}
    {pc : CollectPc}
    (accept : .accepted (jobItem now r (.store r.jobId fmt cfg.settings.outputsDir)) ∈ tr)
    (task : s.tasks r.jobId = some (.collector w request cb at' pc)) :
    request = .synthesis r ∧ cb = .store r.jobId fmt cfg.settings.outputsDir := by
  have serves := (placed h).serves _ _ task
  obtain ⟨item, drained, request_eq, callback⟩ := serves.origin
  have told : item ∈ accepted tr := drained_accepted h drained
  have named : item.jobId = r.jobId := by
    rw [QueuedItem.jobId, request_eq]
    exact (collector_serves h task).2.1
  obtain rfl := accepted_unique h told (mem_accepted.mpr accept) named
  exact ⟨request_eq.symm, (Option.some.inj callback).symm⟩

private theorem saved_record (life : Life tr s j) (visit : Visit cfg P tr s) {w : WorkerRef}
    {request : Request} {fmt : AudioFormat} {dir : Path} {at' : ℚ}
    (task : s.tasks j = some (.collector w request (.store j fmt dir) at' .saved)) :
    ∃ job, s.jobs.get? j = some job := by
  have saving : s.phase j = some .saving := phase_of_task visit task rfl
  have last : (history tr j).getLast? = some .running := by
    rw [life.saving saving]
    rfl
  exact (Dict.mem_keys_iff _ _).mp (life.present last rfl)

private theorem getting?_of_hasResult {pc : CollectPc} (given : hasResult pc = true) (w : WorkerRef)
    (r : Request) (cb : OnComplete) (t : ℚ) : (Task.collector w r cb t pc).getting? = none := by
  cases pc with
  | ready | getting | saveRaised | ended => cases given
  | got | saving | saved => rfl

private theorem Change.hasResult_kept (before : Visit cfg P tr s) {s₀ : State}
    (change : Change cfg s₀ e s s' o) (foreign : callbackOf e ≠ some j) {w : WorkerRef}
    {r : Request} {cb : OnComplete} {t : ℚ} {pc : CollectPc} (given : hasResult pc = true)
    (task : s.tasks j = some (.collector w r cb t pc)) :
    s'.tasks j = some (.collector w r cb t pc) := by
  -- Tasks that wait for something else are other tasks.
  have aside : ∀ {k : JobId} {t₁ : Option Task} {t₂ : Task}, s.tasks k = t₁ →
      t₁ ≠ some (.collector w r cb t pc) →
      Function.update s.tasks k (some t₂) j = some (.collector w r cb t pc) := by
    intro k t₁ t₂ there different
    have other : j ≠ k := by
      rintro rfl
      exact different (there.symm.trans task)
    rw [Function.update_of_ne other, task]
  have mine : ∀ {k : JobId} {t₂ : Task}, callbackOf e = some k →
      Function.update s.tasks k (some t₂) j = some (.collector w r cb t pc) := by
    intro k t₂ event
    have other : j ≠ k := fun same => foreign (same ▸ event)
    rw [Function.update_of_ne other, task]
  cases change with
  | streamQueued fresh | cloneStart _ fresh =>
    exact aside (tasks_of_fresh before (placed before) fresh) (by simp)
  | clonePut there | leave there | cloneDone _ there | cancelAwaiting _ there
  | cancelAssigned _ there => exact aside there (by simp)
  | collected event | saveOpen _ _ event | saveWrite _ _ event | saved _ event =>
    subst event
    exact mine rfl
  | getReply there blocked =>
    refine aside there fun same => ?_
    obtain rfl := Option.some.inj same
    rw [getting?_of_hasResult given] at blocked
    cases blocked
  | @move k t₁ t' frame there move =>
    by_cases own : callbackOf e = some k
    · exact mine own
    · refine aside there fun same => ?_
      obtain rfl := Option.some.inj same
      cases move with
      | timeout blocked | error blocked =>
        rw [getting?_of_hasResult given] at blocked
        cases blocked
      | collectorStart => cases given
      | collectorRaised => cases given
      | saveRaise => exact own rfl
  | @handedOver item v loop =>
    rcases handedOver_cases before loop with ⟨cb', -, free, tasks⟩ | ⟨waits, tasks⟩ | ⟨-, tasks⟩
    · exact tasks ▸ aside free (by simp)
    · exact tasks ▸ aside waits (by simp)
    · exact tasks ▸ task
  | _ => exact task

private theorem getReply_fetches {w : WorkerRef} {r : Request} {cb : OnComplete} {t t0 : ℚ}
    {m : Message} {rest : List Message}
    (task : s.tasks j = some (.collector w r cb t (.getting t0)))
    (head : s.resultQueues r.resultQueue = m :: rest) :
    ∃ s', step cfg s (.getReply j) = some (s', [.fetched r.resultQueue m]) ∧
      s'.tasks j = some (.collector w r cb t (.got t0 (.item m))) := by
  have fetched : getReply s j = some
      ({ s.setTask j (.collector w r cb t (.got t0 (.item m))) with
        resultQueues := Function.update s.resultQueues r.resultQueue rest },
        [.fetched r.resultQueue m]) := by
    simp only [getReply, task, Task.getting?, Option.isSome_some, if_true, Task.request, head,
      Task.deliver]
  exact ⟨_, fetched, Function.update_self ..⟩

private theorem open_record (life : Life tr s j) (visit : Visit cfg P tr s) {w : WorkerRef}
    {request : Request} {fmt : AudioFormat} {dir : Path} {at' t0 : ℚ} {outcome : GetOutcome}
    (task : s.tasks j = some (.collector w request (.store j fmt dir) at' (.got t0 outcome))) :
    ∃ job, s.jobs.get? j = some job := by
  have early : s.phase j = some .early := phase_of_task visit task rfl
  have last : (history tr j).getLast? = some .pending := by
    rw [life.early early]
    rfl
  exact (Dict.mem_keys_iff _ _).mp (life.present last rfl)

private theorem onComplete_success {result : SynthesisResult} (clean : reportsError result = false)
    (job : JobId) (fmt : AudioFormat) (dir : Path) (w : WorkerRef) (ms : ℚ) :
    onComplete s (.store job fmt dir) w result ms =
      (markRunning s job w ms, .saving result false) := by
  cases told : result.error with
  | none => simp only [onComplete, told]
  | some error =>
    obtain rfl : error = "" := by simpa [reportsError, told] using clean
    simp [onComplete, told]

private theorem good_result (life : Life tr s j) (visit : Visit cfg P tr s) {w : WorkerRef}
    {r : Request} {fmt : AudioFormat} {dir : Path} {t t0 : ℚ} {result : SynthesisResult}
    (task : s.tasks j = some
      (.collector w r (.store j fmt dir) t (.got t0 (.item (.result result)))))
    (clean : reportsError result = false) :
    ∃ s' o, step cfg s (.resume j) = some (s', o) ∧ .completed (.store j fmt dir) w result ∈ o ∧
      s'.tasks j = some (.collector w r (.store j fmt dir) t (.saving result false)) ∧
      ∃ job, s'.jobs.get? j = some job ∧ job.status = .running := by
  obtain ⟨job, found⟩ := open_record life visit task
  obtain ⟨workers, drain, i, slot⟩ := releaseSlot_releases s w ((s.now - t0) * 1000) r.jobId
  obtain ⟨handle, there⟩ := collector_handle visit task slot
  have released :
      releasedBy s w r t0 = ({ s with workers, drain }, i.toList.map (.released r.jobId)) :=
    slot.eq
  have called : calledBy s w r (.store j fmt dir) t0 result =
      (markRunning { s with workers, drain } j w ((s.now - t0) * 1000), .saving result false) := by
    rw [calledBy, released]
    exact onComplete_success clean j fmt dir w _
  refine ⟨_, _, resume_collector task rfl, by simp, ?_, ?_⟩
  · rw [called]
    exact Function.update_self ..
  · rw [called]
    refine ⟨job.markRunning s.now handle.workerId handle.gpuIndex ((s.now - t0) * 1000), ?_, rfl⟩
    simp only [markRunning, there, State.setTask, JobStore.markRunning, Dict.get?_modify, if_true,
      found, Option.map_some]

private theorem saveOpen_opens {w : WorkerRef} {r : Request} {fmt : AudioFormat} {dir : Path}
    {t : ℚ} {result : SynthesisResult} (encoded : result.audio ≠ none)
    (task : s.tasks j = some (.collector w r (.store j fmt dir) t (.saving result false))) :
    ∃ s', step cfg s (.saveOpen j) = some (s', []) ∧
      s'.tasks j = some (.collector w r (.store j fmt dir) t (.saving result true)) := by
  have opened : saveOpen s j = some
      ({ s.setTask j (.collector w r (.store j fmt dir) t (.saving result true)) with
        files := s.files.write (audioPath dir j fmt) .partially }, []) := by
    simp only [saveOpen, task, Option.isSome_iff_ne_none.mpr encoded, if_true]
  exact ⟨_, opened, Function.update_self ..⟩

private theorem saveWrite_writes {w : WorkerRef} {r : Request} {fmt : AudioFormat} {dir : Path}
    {t : ℚ} {result : SynthesisResult} {audio : Ndarray} (encoded : result.audio = some audio)
    (task : s.tasks j = some (.collector w r (.store j fmt dir) t (.saving result true))) :
    ∃ s', step cfg s (.saveWrite j) = some (s', []) ∧
      s'.tasks j = some (.collector w r (.store j fmt dir) t .saved) ∧
      s'.files (audioPath dir j fmt) = some (.complete audio fmt result.sampleRate) := by
  have written : saveWrite s j = some
      ({ s.setTask j (.collector w r (.store j fmt dir) t .saved) with
        files := s.files.write (audioPath dir j fmt)
          (.complete audio fmt result.sampleRate) }, []) := by
    simp only [saveWrite, task, encoded]
  exact ⟨_, written, Function.update_self .., Function.update_self ..⟩

private theorem own_callback (h : Reach (server cfg) anyStep tr s) {now : ℚ} {item : BatchItem}
    {r : SynthesisRequest} (life : Life tr s r.jobId)
    (accept : .accepted (jobItem now r (.store r.jobId item.format cfg.settings.outputsDir)) ∈ tr) :
    OwnCallback cfg tr s item r := by
  have visit := visit_of_reach h
  have called : ∀ cb w result, .completed cb w result ∈ tr → cb.jobId = r.jobId →
      cb = .store r.jobId item.format cfg.settings.outputsDir ∧
        (.replied w (.synthesis r) (.result result) ∈ tr ∨ OwnError r.jobId result) := by
    intro cb w result told mine
    obtain ⟨item', r', own⟩ := (completed_once h).own cb w result told
    have named : item'.jobId = r.jobId := by
      rw [QueuedItem.jobId, own.request, ← mine]
      exact own.named.symm
    obtain rfl := accepted_unique visit (mem_accepted.mpr own.accepted)
      (mem_accepted.mpr accept) named
    obtain rfl : r = r' := Request.synthesis.inj own.request
    exact ⟨(Option.some.inj own.callback).symm, own.source⟩
  refine ⟨called, fun e s' o mine taken => ?_,
    fun e s' o w request cb at' pc foreign taken task given => ?_,
    fun w request cb at' t0 m rest task head => ?_,
    fun w request cb at' t0 result task _ clean => ?_,
    fun w request cb at' result task encoded => ?_,
    fun w request cb at' result audio task encoded => ?_, fun w request cb at' task => ?_⟩
  · have alone : e.submits = false ∧ e ≠ .resumeDrain := by
      cases e <;> simp [callbackOf] at mine <;> simp [Event.submits]
    obtain ⟨records, files⟩ := callback_frame visit mine (step_change taken alone.1 alone.2)
    refine ⟨records, fun p other => files p fun own => other (own.unique visit ?_)⟩
    exact ⟨_, item.format, mem_accepted.mpr accept, rfl, rfl⟩
  · exact visit.keeps_along (I := fun a => a.tasks r.jobId = some (.collector w request cb at' pc))
      (step_changes taken) (fun _ _ _ change => ⟨s, e, trivial, change⟩) task
      fun there change now => Change.hasResult_kept there change foreign given now
  · obtain ⟨rfl, rfl⟩ := own_collector visit accept task
    exact getReply_fetches task head
  · obtain ⟨rfl, rfl⟩ := own_collector visit accept task
    exact good_result life visit task clean
  · obtain ⟨rfl, rfl⟩ := own_collector visit accept task
    exact saveOpen_opens encoded task
  · obtain ⟨rfl, rfl⟩ := own_collector visit accept task
    exact saveWrite_writes encoded task
  · obtain ⟨rfl, rfl⟩ := own_collector visit accept task
    obtain ⟨job, found⟩ := saved_record life visit task
    have present : r.jobId ∈ s.jobs.keys := (Dict.mem_keys_iff _ _).mpr ⟨job, found⟩
    obtain ⟨fmt, v, result, audio, told, encoded, same, file⟩ :=
      (contents visit).saved _ _ _ task rfl
    obtain ⟨callback, source⟩ := called _ _ _ told rfl
    obtain rfl : fmt = item.format := (OnComplete.store.inj callback).2.1
    have replied : .replied v (.synthesis r) (.result result) ∈ tr := by
      refine source.resolve_right ?_
      rintro ⟨text, rfl⟩
      cases encoded
    have taken : step cfg s (.resume r.jobId) = some
        ((markDone s r.jobId (audioPath cfg.settings.outputsDir r.jobId
          item.format)).1.setTask r.jobId (.collector w (.synthesis r)
            (.store r.jobId item.format cfg.settings.outputsDir) at' .ended),
          [.marked r.jobId .done]) := by
      simp only [step, resume, task, resumeCollector, markDone, if_pos present]
    refine ⟨_, taken, ⟨job.markDone s.now _, ?_, rfl, rfl⟩, v, result, audio, replied,
      encoded, file⟩
    exact (Dict.get?_modify ..).trans (by rw [if_pos rfl, found]; rfl)

/-! ### The batch -/

private theorem resolved_item {settings : Settings} {speakers : SpeakerView} {i : Nat}
    {item : BatchItem} {r : Resolved}
    (checked : resolveBatchItem settings speakers i item = .ok r) :
    r.text = item.text ∧ r.language = orDefault item.language settings.defaultLanguage ∧
      (∃ speakerId, resolveSpeaker speakers item.speaker =
        .ok (r.gptCondLatent, r.speakerEmbedding, speakerId)) ∧
      r.format = item.format ∧ r.params = item.params := by
  have let_through := resolveBatchItem_eq settings speakers item i
  rw [checked] at let_through
  change some r = _ at let_through
  split_ifs at let_through
  obtain ⟨⟨gpt, emb, speakerId⟩, loaded, rfl⟩ := Option.map_eq_some_iff.mp let_through.symm
  refine ⟨rfl, rfl, ⟨speakerId, ?_⟩, rfl, rfl⟩
  rw [loads] at loaded
  split_ifs at loaded
  cases found : resolveSpeaker speakers item.speaker with
  | error e =>
    rw [found] at loaded
    cases loaded
  | ok latents =>
    rw [found] at loaded
    exact congrArg Except.ok (Option.some.inj loaded)

private theorem getElem?_batchItems {now : ℚ} {queue : QueueId} {rs : List Resolved}
    {ids : List JobId} {i : Nat} {r : Resolved} (resolved : rs[i]? = some r)
    (named : ids[i]? = some j) :
    (batchItems cfg now queue (rs.zip ids))[i]? = some
      (jobItem now (r.toRequest j (queue + i)) (.store j r.format cfg.settings.outputsDir)) := by
  have pair : (rs.zip ids)[i]? = some (r, j) := by
    rw [List.getElem?_zip_eq_some]
    exact ⟨resolved, named⟩
  rw [batchItems, List.getElem?_map, List.getElem?_zipIdx, pair]
  rfl

/-- Each item of an accepted batch is wired to its own job. -/
theorem batch_wired {items : List BatchItem} {speakers : SpeakerView} {ids created : List JobId}
    {raiseAt : Option Nat} (h : Reach (server cfg) anyStep tr s)
    (taken : step cfg s (.submitBatch items speakers ids raiseAt) = some (s', o))
    (told : .batch created (.ok ()) ∈ o) :
    BatchWired cfg (tr ++ o) s s' items speakers (batchResponse created) := by
  obtain ⟨whole, rs, valid, enough, ⟨nodup, fresh⟩, rfl, queue, drawn⟩ := accepted_batch taken told
  have next : Reach (server cfg) anyStep (tr ++ o) s' :=
    h.tail (e := .submitBatch items speakers created raiseAt) trivial taken
  have count := length_resolveBatch valid
  refine ⟨?_, ?_, ?_, fun i item here => ?_⟩
  · simp [batchResponse, enough]
  · simpa [batchResponse, Function.comp_def, List.zipIdx_map_fst] using nodup
  · rw [queue]
    refine ⟨List.prefix_append _ _, ?_⟩
    simp [batchItems]
    omega
  · obtain ⟨r, resolved, checked⟩ := getElem?_resolveBatch valid here
    have range : i < items.length := (List.getElem?_eq_some_iff.mp here).1
    obtain ⟨j, named⟩ : ∃ j, created[i]? = some j := ⟨_, List.getElem?_eq_getElem (enough ▸ range)⟩
    obtain ⟨text, language, latents, format, params⟩ := resolved_item checked
    have queued :
        s'.queue[s.queue.length + i]? = some (jobItem s.now (r.toRequest j (s.nextQueue + i))
          (.store j item.format cfg.settings.outputsDir)) := by
      rw [queue, List.getElem?_append_right (Nat.le_add_right _ _), Nat.add_sub_cancel_left,
        ← format]
      exact getElem?_batchItems resolved named
    have member : j ∈ created := List.mem_of_getElem? named
    refine ⟨r.toRequest j (s.nextQueue + i), ⟨?_, queued, text, language, latents, params⟩, ?_⟩
    · simp [batchResponse, List.getElem?_zipIdx, named, Resolved.toRequest]
    · intro tr' t run
      have life := (life_of_fresh h (fresh j member).2).whole_step h trivial whole taken
      have accept := items_accepted (visit_of_reach next)
        (List.mem_append_right _ (List.mem_of_getElem? queued))
      exact own_callback (next.trans run) (life.along next (drawn member) run).1
        (List.mem_append_left _ (mem_accepted.mp accept))

private theorem hellos_accepted :
    (step oneWorker (State.init oneWorker) lateBatch).isSome = true := by
  decide +kernel

/-- The audio of the first item is saved; the second item's result has come. -/
def hellosServed : List Event :=
  [.resumeDrain, .drainPut, .resumeDrain, .resume "a", .workerTake 0,
    .workerReply 0 (.arrays ⟨[1], [0]⟩ ⟨[], []⟩), .getReply "a", .resume "a", .saveOpen "a",
    .saveWrite "a", .resumeDrain, .drainPut, .resumeDrain, .resume "b", .workerTake 0,
    .workerReply 0 (.arrays ⟨[1], [1]⟩ ⟨[], []⟩), .getReply "b"]

private theorem hellosServed_runs : (exec (server oneWorker) anyStep
    ((step oneWorker (State.init oneWorker) lateBatch).get hellos_accepted).1 hellosServed).isSome =
      true := by decide +kernel

/-- The audio that a collector has been sent and has yet to look at. -/
def sentAudio? : Task → Option Ndarray
  | .collector _ _ _ _ (.got _ (.item (.result result))) =>
      if reportsError result then none else result.audio
  | _ => none

private theorem sentAudio?_eq {t : Task} {audio : Ndarray} (sent : sentAudio? t = some audio) :
    ∃ w r cb at' t0 result, t = .collector w r cb at' (.got t0 (.item (.result result))) ∧
      result.audio = some audio ∧ reportsError result = false := by
  unfold sentAudio? at sent
  split at sent
  · rename_i w r cb at' t0 result
    split_ifs at sent with reported
    exact ⟨w, r, cb, at', t0, result, rfl, sent, by simpa using reported⟩
  · cases sent

private theorem BatchWired.own {items : List BatchItem} {speakers : SpeakerView}
    {created : List JobId} {tr' : List Obs} {t : State}
    (wired : BatchWired cfg tr s s' items speakers (batchResponse created))
    (run : Run (server cfg) anyStep s' tr' t) {i : Nat} {item : BatchItem}
    (here : items[i]? = some item) (named : created[i]? = some j) :
    ∃ r, r.jobId = j ∧ OwnCallback cfg (tr ++ tr') t item r := by
  obtain ⟨r, entry, callback⟩ := wired.items i item here
  refine ⟨r, ?_, callback _ _ run⟩
  have same := congrArg (Option.map BatchJobEntry.jobId) entry.entry
  simpa [batchResponse, List.getElem?_zipIdx, named, eq_comm] using same

private theorem BatchWired.finishes {items : List BatchItem} {speakers : SpeakerView}
    {created : List JobId} {tr' : List Obs} {t : State}
    (wired : BatchWired cfg tr s s' items speakers (batchResponse created))
    (run : Run (server cfg) anyStep s' tr' t) {i : Nat} {item : BatchItem}
    (here : items[i]? = some item) (named : created[i]? = some j)
    (saved : ((t.tasks j).bind Task.savedPath).isSome = true) :
    ∃ s'' r, step cfg t (.resume j) = some (s'', [.marked j .done]) ∧
      DoneWith (tr ++ tr') s'' item r (audioPath cfg.settings.outputsDir j item.format) := by
  obtain ⟨r, rfl, own⟩ := wired.own run here named
  obtain ⟨p, saved⟩ := Option.isSome_iff_exists.mp saved
  obtain ⟨task, found, path⟩ := Option.bind_eq_some_iff.mp saved
  obtain ⟨w, request, k, fmt, dir, at', rfl, -⟩ := Task.savedPath_eq path
  obtain ⟨s'', steps, done⟩ := own.done w request _ at' found
  exact ⟨s'', r, steps, done⟩

private theorem BatchWired.runs {items : List BatchItem} {speakers : SpeakerView}
    {created : List JobId} {tr' : List Obs} {t : State}
    (wired : BatchWired cfg tr s s' items speakers (batchResponse created))
    (run : Run (server cfg) anyStep s' tr' t) {i : Nat} {item : BatchItem}
    (here : items[i]? = some item) (named : created[i]? = some j)
    (sent : ((t.tasks j).bind sentAudio?).isSome = true) :
    ∃ s'' o, step cfg t (.resume j) = some (s'', o) ∧
      ∃ job, s''.jobs.get? j = some job ∧ job.status = .running := by
  obtain ⟨r, rfl, own⟩ := wired.own run here named
  obtain ⟨audio, sent⟩ := Option.isSome_iff_exists.mp sent
  obtain ⟨task, found, good⟩ := Option.bind_eq_some_iff.mp sent
  obtain ⟨w, request, cb, at', t0, result, rfl, encoded, clean⟩ := sentAudio?_eq good
  obtain ⟨s'', o, steps, -, -, record⟩ :=
    own.good w request cb at' t0 result found (by simp [encoded]) clean
  exact ⟨s'', o, steps, record⟩

/-- The first item's job is about to be done, the second's to be saved. -/
theorem batch_wired_hellos :
    BatchWired oneWorker ([] ++ ((step oneWorker (State.init oneWorker) lateBatch).get
      hellos_accepted).2) (State.init oneWorker)
      ((step oneWorker (State.init oneWorker) lateBatch).get hellos_accepted).1
      [sayHello, sayHello] noSpeakers (batchResponse ["a", "b"]) ∧
    (∃ s' r, step oneWorker ((exec (server oneWorker) anyStep
        ((step oneWorker (State.init oneWorker) lateBatch).get hellos_accepted).1 hellosServed).get
          hellosServed_runs).1 (.resume "a") = some (s', [.marked "a" .done]) ∧
      DoneWith ([] ++ ((step oneWorker (State.init oneWorker) lateBatch).get hellos_accepted).2 ++
        ((exec (server oneWorker) anyStep
          ((step oneWorker (State.init oneWorker) lateBatch).get hellos_accepted).1
            hellosServed).get hellosServed_runs).2) s' sayHello r
        (audioPath oneWorker.settings.outputsDir "a" sayHello.format)) ∧
    ∃ s' o, step oneWorker ((exec (server oneWorker) anyStep
        ((step oneWorker (State.init oneWorker) lateBatch).get hellos_accepted).1 hellosServed).get
          hellosServed_runs).1 (.resume "b") = some (s', o) ∧
      ∃ job, s'.jobs.get? "b" = some job ∧ job.status = .running := by
  have wired := batch_wired .refl (Option.some_get hellos_accepted).symm
    (by decide +kernel : Obs.batch ["a", "b"] (.ok ()) ∈ _)
  have run := run_of_exec (Option.some_get hellosServed_runs).symm
  refine ⟨wired, ?_, ?_⟩
  · exact wired.finishes run (i := 0) rfl rfl (by decide +kernel)
  · exact wired.runs run (i := 1) rfl rfl (by decide +kernel)

end XttsServer.Guarantees
