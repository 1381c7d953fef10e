import XttsServer.Model.Step

/-!
The indivisible changes that the steps of the server consist of, with the state
after each of them written out. Most steps are one change; a submission is one
change for each item, and the drain loop hands over one item and takes the next
in one step.
-/

set_option autoImplicit false
set_option relaxedAutoImplicit false

namespace XttsServer.Model

open XttsServer.Foundations.Transition

/-! ### Conditions on a step -/

/-- A batch that passes its checks and finds some free places in the queue, but fewer than
it has items. -/
def splitsBatch (cfg : Config) (s : State) : Event → Bool
  | .submitBatch items speakers _ none =>
      match resolveBatch cfg.settings speakers items with
      | .ok _ =>
          s.queue.length < cfg.settings.maxQueueSize ∧
            cfg.settings.maxQueueSize < s.queue.length + items.length
      | .error _ => false
  | _ => false

/-- `make_queue` raises in a handler that has created a job. -/
def Event.makeQueueRaises : Event → Bool
  | .submitTts _ _ _ raises => raises
  | .submitBatch _ _ _ raiseAt => raiseAt.isSome
  | _ => false

def Event.submits : Event → Bool
  | .submitTts _ _ _ _ => true
  | .submitBatch _ _ _ _ => true
  | .runSynthesis _ _ _ => true
  | .streamTts _ _ _ => true
  | _ => false

def Event.saveRaises : Event → Bool
  | .saveRaise _ => true
  | _ => false

/-! ### The parts of a step -/

def storeItem (cfg : Config) (s : State) (r : Resolved) (j : JobId) : QueuedItem :=
  jobItem s.now (r.toRequest j s.nextQueue) (.store j r.format cfg.settings.outputsDir)

/-- What `uuid.uuid4()` may return next. -/
def State.canDraw (s : State) (j : JobId) : Prop := isUuid j = true ∧ j ∉ s.used

/-- The drain loop has the item at hand, with `rest` still in the queue. -/
def State.atHand (s : State) (item : QueuedItem) (rest : List QueuedItem) : Prop :=
  s.drain = .getting ∧ s.queue = item :: rest ∨ s.drain = .waiting item true ∧ s.queue = rest

/-- The drain loop, resumed, will have an item at hand. -/
def State.takesItem (s : State) : Bool :=
  match s.drain with
  | .getting => s.queue ≠ []
  | .waiting _ notified => notified
  | .put _ _ => s.queue ≠ []
  | _ => false

/-- `releaseSlot` leaves these handles and this drain loop, having updated the handle `i`. -/
def State.releases (s : State) (w : WorkerRef) (elapsedMs : ℚ) (j : JobId)
    (workers : List WorkerHandle) (drain : DrainPc) (i : Option WorkerRef) : Prop :=
  releaseSlot s w elapsedMs j = ({ s with workers, drain }, i.toList.map (.released j))

def State.audio? (s : State) (j : JobId) : Option Path := (s.jobs.get? j).bind Job.audioPath

/-- What a `mark_*` method shows when it finds its record. -/
def marks (jobs : JobStore) (j : JobId) (status : JobStatus) : List Obs :=
  if j ∈ jobs.keys then [.marked j status] else []

/-- `mark_failed` on one job after the other, and what it shows. -/
def JobStore.failAll (store : JobStore) (now : ℚ) (error : String) (ids : List JobId) : JobStore :=
  ids.foldl (fun store j => store.markFailed now j error) store

@[simp] def failMarks (jobs : JobStore) (ids : List JobId) : List Obs :=
  (ids.filter (· ∈ jobs.keys)).map (.marked · .failed)

def OnComplete.jobId : OnComplete → JobId
  | .store j _ _ => j
  | .bridge j => j

/-- An answer that does not report a rejected batch some of whose jobs exist. -/
def Obs.harmless : Obs → Bool
  | .batch jobs (.error (.http _ _)) => jobs = []
  | _ => true

def Obs.isAnswer : Obs → Bool
  | .batch _ _ => true
  | .tts _ _ => true
  | .speech _ _ => true
  | .frame _ _ => true
  | _ => false

/-- A change of the program point of one task that touches nothing else of the server. -/
inductive Move (cfg : Config) (now : ℚ) (j : JobId) : Event → Task → Task → Option Frame → Prop
  | collectorStart {w r cb t} :
      Move cfg now j (.resume j) (.collector w r cb t .ready)
        (.collector w r cb t (.getting now)) none
  | collectorRaised {w r cb t} :
      Move cfg now j (.resume j) (.collector w r cb t .saveRaised) (.collector w r cb t .ended) none
  | saveRaise {w r cb t result opened} :
      Move cfg now j (.saveRaise j) (.collector w r cb t (.saving result opened))
        (.collector w r cb t .saveRaised) none
  | timeout {t : Task} {t0 : ℚ} (blocked : t.getting? = some t0) :
      Move cfg now j (.getTimeout j) t (t.deliver .empty) none
  | error {t : Task} {t0 : ℚ} {text : String} (blocked : t.getting? = some t0) :
      Move cfg now j (.getError j text) t (t.deliver (.error text)) none
  | streamAssigned {r w} :
      Move cfg now j (.resume j) (.stream r (.assigned w)) (.stream r (.getting w now)) none
  | streamChunk {r w c} :
      Move cfg now j (.resume j) (.stream r (.got w (.item (.chunk c))))
        (.stream r (.sending w c.chunk)) none
  | streamDone {r w} {e : SynthesisStreamEnd} (clean : e.error = none ∨ e.error = some "") :
      Move cfg now j (.resume j) (.stream r (.got w (.item (.streamEnd e))))
        (.stream r (.closing w .done)) none
  | streamFailed {r w} {e : SynthesisStreamEnd} {detail : String} :
      Move cfg now j (.resume j) (.stream r (.got w (.item (.streamEnd e))))
        (.stream r (.closing w (.failed detail))) none
  | streamOther {r w m} (other : ∀ x, m ≠ .streamEnd x) (unsent : ∀ c, m ≠ .chunk c) :
      Move cfg now j (.resume j) (.stream r (.got w (.item m))) (.stream r (.getting w now)) none
  | streamTimedOut {r w} :
      Move cfg now j (.resume j) (.stream r (.got w .empty))
        (.stream r (.closing w (.timedOut (timeoutText cfg)))) none
  | streamSent {r w c} :
      Move cfg now j (.sent j) (.stream r (.sending w c)) (.stream r (.getting w now))
        (some (.bytes c))
  | streamReported {r e f} (told : f = none ∨ f = some (.error "Internal server error."))
      (event : e = .sent j ∨ (∃ d, e = .sendFails j d) ∨ e = .cancelStream j)
      (reports : e = .sent j → f ≠ none) :
      Move cfg now j e (.stream r .reporting) (.stream r .ended) f
  | cloneReady {w r} :
      Move cfg now j (.resume j) (.clone w r .put) (.clone w r (.getting now)) none

/-- The ways in which the chunk loop of a stream is left, with its `finally`. -/
inductive Leave (j : JobId) : Event → WorkerRef → StreamPc → StreamPc → Option Frame → Prop
  | raised {w text} : Leave j (.resume j) w (.got w (.error text)) .reporting none
  | closed {w how} : Leave j (.sent j) w (.closing w how) .ended (some how.frame)
  | sendFails {w c next} (after : next = .ended ∨ next = .reporting) {d} :
      Leave j (.sendFails j d) w (.sending w c) next none
  | closeFails {w how next} (after : next = .ended ∨ next = .reporting) {d} :
      Leave j (.sendFails j d) w (.closing w how) next none
  | cancelGetting {w t0} : Leave j (.cancelStream j) w (.getting w t0) .ended none
  | cancelGot {w outcome} : Leave j (.cancelStream j) w (.got w outcome) .ended none
  | cancelSending {w c} : Leave j (.cancelStream j) w (.sending w c) .ended none
  | cancelClosing {w how} : Leave j (.cancelStream j) w (.closing w how) .ended none

/-! ### The changes -/

/-- `Change cfg s₀ e s s' o`: the step that takes `s₀` by the event `e` may on its way change
`s` to `s'`, observing `o`. -/
inductive Change (cfg : Config) (s₀ : State) (e : Event) : State → State → List Obs → Prop
  | tick {dt : ℚ} (forward : 0 ≤ dt) (event : e = .tick dt) :
      Change cfg s₀ e s₀ { s₀ with now := s₀.now + dt } []
  -- submissions
  | drawn {s j} (fresh : s.canDraw j) (submits : e.submits = true) :
      Change cfg s₀ e s { s with used := j :: s.used } []
  | jobQueued {s} {r : Resolved} {j} (fresh : s.canDraw j) (room : queueFull cfg s = false)
      (submits : e.submits = true) :
      Change cfg s₀ e s
        { s with
          used := j :: s.used
          nextQueue := s.nextQueue + 1
          jobs := s.jobs.create s.now j r.text r.language r.speakerId
          queue := s.queue ++ [storeItem cfg s r j] }
        [.created j, .accepted (storeItem cfg s r j)]
  | jobTurnedAway {s} {r : Resolved} {j text answer} (fresh : s.canDraw j)
      (full : queueFull cfg s = true) (told : answer = .tts j (.error (.http 503 text)) ∨
        answer = .batch [j] (.error (.http 503 text)))
      (submits : e.submits = true) :
      Change cfg s₀ e s
        { s with
          used := j :: s.used
          nextQueue := s.nextQueue + 1
          jobs := (s.jobs.create s.now j r.text r.language r.speakerId).markFailed s.now j text }
        [.created j, .rejected (storeItem cfg s r j), .marked j .failed, answer]
  | jobRaised {s} {r : Resolved} {j} (fresh : s.canDraw j) (raises : e.makeQueueRaises = true) :
      Change cfg s₀ e s
        { s with
          used := j :: s.used
          jobs := s.jobs.create s.now j r.text r.language r.speakerId }
        [.created j]
  | batchRefused {s} {r : Resolved} {j created text} (fresh : s.canDraw j)
      (waiting : ∀ k ∈ created, (s.jobs.get? k).map Job.status = some .pending)
      (split : splitsBatch cfg s₀ e = true) (submits : e.submits = true) :
      Change cfg s₀ e s
        { s with
          used := j :: s.used
          nextQueue := s.nextQueue + 1
          jobs := (s.jobs.create s.now j r.text r.language r.speakerId).failAll s.now text
            (created ++ [j]) }
        ([.created j, .rejected (storeItem cfg s r j)] ++ failMarks
          (s.jobs.create s.now j r.text r.language r.speakerId) (created ++ [j]))
  | bridgeQueued {s} {r : Resolved} {j} (fresh : s.canDraw j) (room : queueFull cfg s = false)
      (submits : e.submits = true) :
      Change cfg s₀ e s
        { s with
          used := j :: s.used
          nextQueue := s.nextQueue + 1
          queue := s.queue ++ [jobItem s.now (r.toRequest j s.nextQueue) (.bridge j)] }
        [.accepted (jobItem s.now (r.toRequest j s.nextQueue) (.bridge j))]
  | streamQueued {s} {request : StreamSynthesisRequest} (fresh : s.canDraw request.jobId)
      (queue : request.resultQueue = s.nextQueue) (room : queueFull cfg s = false)
      (submits : e.submits = true) :
      Change cfg s₀ e s
        { s with
          used := request.jobId :: s.used
          nextQueue := s.nextQueue + 1
          queue := s.queue ++ [streamItem s.now request]
          tasks := Function.update s.tasks request.jobId
            (some (.stream (.stream request) .awaiting)) }
        [.accepted (streamItem s.now request)]
  | requestRefused {s item} (fresh : s.canDraw item.jobId) (full : queueFull cfg s = true)
      (submits : e.submits = true) :
      Change cfg s₀ e s
        { s with used := item.jobId :: s.used, nextQueue := s.nextQueue + 1 } [.rejected item]
  | answered {s a} (answer : a.isAnswer = true)
      (whole : a.harmless = true ∨ splitsBatch cfg s₀ e = true) (submits : e.submits = true)
      (refused : ∀ j f, a = .frame j f → s₀.canDraw j ∧ j ∈ s.used ∧ s.tasks = s₀.tasks) :
      Change cfg s₀ e s s [a]
  -- compute_latents
  | cloneStart {j wavPath w} (event : e = .computeLatents j wavPath) (fresh : s₀.canDraw j)
      (picked : pickWorker s₀.workers = some w) :
      Change cfg s₀ e s₀
        { s₀ with
          used := j :: s₀.used
          nextQueue := s₀.nextQueue + 1
          workers := s₀.workers.modify w fun h => h.acquire j s₀.now
          tasks := Function.update s₀.tasks j
            (some (.clone w (.computeLatents ⟨j, wavPath, s₀.nextQueue⟩) .putting)) }
        [.dispatched (.computeLatents ⟨j, wavPath, s₀.nextQueue⟩) w]
  | cloneRaises {j wavPath} (fresh : s₀.canDraw j) (picked : pickWorker s₀.workers = none)
      (event : e = .computeLatents j wavPath) :
      Change cfg s₀ e s₀ { s₀ with used := j :: s₀.used, nextQueue := s₀.nextQueue + 1 } []
  | clonePut {j w r} (task : s₀.tasks j = some (.clone w r .putting)) (event : e = .clonePut j) :
      Change cfg s₀ e s₀
        { s₀ with
          processes := Function.update s₀.processes w
            { s₀.processes w with requestQueue := (s₀.processes w).requestQueue ++ [r] }
          tasks := Function.update s₀.tasks j (some (.clone w r .put)) } []
  -- the drain loop
  | drainWaits {s item rest} (hand : s.atHand item rest) (busy : allBusy s.workers = true)
      (event : e = .resumeDrain) :
      Change cfg s₀ e s { s with queue := rest, drain := .waiting item false } []
  | drainRaises {s item rest} (hand : s.atHand item rest) (picked : pickWorker s.workers = none)
      (event : e = .resumeDrain) :
      Change cfg s₀ e s { s with queue := rest, drain := .raised item } []
  | drainDispatches {s item rest w} (event : e = .resumeDrain) (takes : s₀.takesItem = true)
      (hand : s.atHand item rest) (same : s.workers = s₀.workers) (free : allBusy s.workers = false)
      (picked : pickWorker s.workers = some w) :
      Change cfg s₀ e s
        { s with
          queue := rest
          drain := .putting item w
          workers := s.workers.modify w fun h => h.acquire item.jobId s.now }
        [.dispatched item.request w, .drained item w]
  | drainPut {item w} (loop : s₀.drain = .putting item w) (event : e = .drainPut) :
      Change cfg s₀ e s₀
        { s₀ with
          processes := Function.update s₀.processes w
            { s₀.processes w with requestQueue := (s₀.processes w).requestQueue ++ [item.request] }
          drain := .put item w } []
  | handedOver {item w} (loop : s₀.drain = .put item w) (event : e = .resumeDrain) :
      Change cfg s₀ e s₀
        { s₀ with drain := .getting, tasks := (handOver s₀ item w).tasks } []
  -- owners of dispatched requests
  | move {j t t' frame} (task : s₀.tasks j = some t) (move : Move cfg s₀.now j e t t' frame) :
      Change cfg s₀ e s₀ { s₀ with tasks := Function.update s₀.tasks j (some t') }
        (frame.toList.map (.frame j))
  | getReply {j t t0 m rest} (task : s₀.tasks j = some t) (blocked : t.getting? = some t0)
      (head : s₀.resultQueues t.request.resultQueue = m :: rest) (event : e = .getReply j) :
      Change cfg s₀ e s₀
        { s₀ with
          tasks := Function.update s₀.tasks j (some (t.deliver (.item m)))
          resultQueues := Function.update s₀.resultQueues t.request.resultQueue rest }
        [.fetched t.request.resultQueue m]
  | collected {j w r cb t t0 outcome result workers drain i next jobs resultFutures}
      {statuses : List JobStatus}
      (event : e = .resume j)
      (task : s₀.tasks j = some (.collector w r cb t (.got t0 outcome)))
      (value : collectedResult cfg r.jobId outcome = some result)
      (slot : s₀.releases w ((s₀.now - t0) * 1000) r.jobId workers drain i)
      (call : onComplete { s₀ with workers, drain } cb w result ((s₀.now - t0) * 1000) =
        (({ s₀ with workers, drain, jobs, resultFutures }, statuses.map
          (.marked cb.jobId)), next)) :
      Change cfg s₀ e s₀
        { s₀ with
          workers, drain, jobs, resultFutures
          tasks := Function.update s₀.tasks j (some (.collector w r cb t next)) }
        (i.toList.map (.released r.jobId) ++ [.completed cb w result] ++
          statuses.map (.marked cb.jobId))
  | leave {j r w pc next frame workers drain i} (task : s₀.tasks j = some (.stream r pc))
      (left : Leave j e w pc next frame) (slot : s₀.releases w 0 j workers drain i) :
      Change cfg s₀ e s₀
        { s₀ with
          workers, drain
          tasks := Function.update s₀.tasks j (some (.stream r next)) }
        (frame.toList.map (.frame j) ++ i.toList.map (.released j))
  | cloneDone {j w r outcome workers drain i} (event : e = .resume j)
      (task : s₀.tasks j = some (.clone w r (.got outcome)))
      (slot : s₀.releases w 0 j workers drain i) :
      Change cfg s₀ e s₀
        { s₀ with
          workers, drain
          tasks := Function.update s₀.tasks j (some (.clone w r .ended)) }
        (i.toList.map (.released j))
  | cancelAwaiting {j r} (event : e = .cancelStream j)
      (task : s₀.tasks j = some (.stream r .awaiting)) :
      Change cfg s₀ e s₀
        { s₀ with tasks := Function.update s₀.tasks j (some (.stream r .ended)) } []
  | cancelAssigned {j r w} (event : e = .cancelStream j)
      (task : s₀.tasks j = some (.stream r (.assigned w))) :
      Change cfg s₀ e s₀
        { s₀ with tasks := Function.update s₀.tasks j (some (.stream r .ended)) } []
  | saveOpen {j w r job fmt dir t result audio}
      (task : s₀.tasks j = some (.collector w r (.store job fmt dir) t (.saving result false)))
      (encoded : result.audio = some audio) (event : e = .saveOpen j) :
      Change cfg s₀ e s₀
        { s₀ with
          tasks := Function.update s₀.tasks j
            (some (.collector w r (.store job fmt dir) t (.saving result true)))
          files := s₀.files.write (audioPath dir job fmt) .partially } []
  | saveWrite {j w r job fmt dir t result audio}
      (task : s₀.tasks j = some (.collector w r (.store job fmt dir) t (.saving result true)))
      (encoded : result.audio = some audio) (event : e = .saveWrite j) :
      Change cfg s₀ e s₀
        { s₀ with
          tasks := Function.update s₀.tasks j (some (.collector w r (.store job fmt dir) t .saved))
          files := s₀.files.write (audioPath dir job fmt)
            (.complete audio fmt result.sampleRate) } []
  | saved {j w r job fmt dir t}
      (task : s₀.tasks j = some (.collector w r (.store job fmt dir) t .saved))
      (event : e = .resume j) :
      Change cfg s₀ e s₀
        { s₀ with
          tasks := Function.update s₀.tasks j (some (.collector w r (.store job fmt dir) t .ended))
          jobs := s₀.jobs.markDone s₀.now job (audioPath dir job fmt) }
        (marks s₀.jobs job .done)
  -- worker processes
  | workerTake {w r rest} (idle : s₀.processes w = ⟨r :: rest, none⟩) (event : e = .workerTake w) :
      Change cfg s₀ e s₀
        { s₀ with processes := Function.update s₀.processes w ⟨rest, some r⟩ } []
  | workerChunk {w r rest chunk} (event : e = .workerChunk w chunk)
      (busy : s₀.processes w = ⟨rest, some (.stream r)⟩) :
      Change cfg s₀ e s₀
        { s₀ with
          resultQueues := Function.update s₀.resultQueues r.resultQueue
            (s₀.resultQueues r.resultQueue ++ [.chunk ⟨r.jobId, chunk⟩]) }
        [.replied w (.stream r) (.chunk ⟨r.jobId, chunk⟩)]
  | workerReply {w r rest outcome} (event : e = .workerReply w outcome)
      (busy : s₀.processes w = ⟨rest, some r⟩) (traced : outcome ≠ .raised "") :
      Change cfg s₀ e s₀
        { s₀ with
          processes := Function.update s₀.processes w ⟨rest, none⟩
          resultQueues := Function.update s₀.resultQueues r.resultQueue
            (s₀.resultQueues r.resultQueue ++ [closingMessage r outcome]) }
        [.replied w r (closingMessage r outcome)]
  -- downloads and eviction
  | getAudio {j} {pc : DownloadPc} {answer} (event : e = .getAudio j)
      (told : audioAnswer s₀.files j (s₀.jobs.get? j) = answer)
      (next : pc = .ended ∧ (∃ exc, answer = .error exc) ∨
        ∃ path, s₀.audio? j = some path ∧ pc = .opening j path ∧ answer = .ok path) :
      Change cfg s₀ e s₀ { s₀ with downloads := s₀.downloads ++ [pc] }
        [.audio s₀.downloads.length j answer]
  | openFile {g j path} (download : s₀.downloads[g]? = some (.opening j path))
      (present : s₀.files.isFile path = true) (event : e = .openFile g) :
      Change cfg s₀ e s₀
        { s₀ with downloads := s₀.downloads.set g (.sending j path) } [.served g j]
  | vanished {g j path} (download : s₀.downloads[g]? = some (.opening j path))
      (absent : s₀.files.isFile path = false) (event : e = .openFile g) :
      Change cfg s₀ e s₀ { s₀ with downloads := s₀.downloads.set g .ended } [.vanished g j]
  | deleteAfterSend {g j path} {fails : Bool} (download : s₀.downloads[g]? = some (.sending j path))
      (event : e = .deleteAfterSend g fails) :
      Change cfg s₀ e s₀
        { s₀ with
          downloads := s₀.downloads.set g .ended
          files := if fails then s₀.files else s₀.files.remove path
          jobs := s₀.jobs.clearAudioPath j } []
  | evict {failures jobs files} (event : e = .evict failures)
      (pass : evictExpired s₀.jobs s₀.files s₀.now cfg.settings.jobTtlSeconds failures =
        (jobs, files)) :
      Change cfg s₀ e s₀ { s₀ with jobs, files } []

end XttsServer.Model
