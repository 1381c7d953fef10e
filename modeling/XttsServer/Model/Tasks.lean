import XttsServer.Model.Submission

/-!
What the event loop runs between two suspension points of the drain loop, of the
tasks that own dispatched requests and of the download responses, and what the
executor threads and the worker processes do meanwhile.
-/

set_option autoImplicit false
set_option relaxedAutoImplicit false

namespace XttsServer.Model

/-! ### Dispatcher.release -/

/-- `notify_all`: the waiting drain loop becomes runnable. -/
def DrainPc.notify : DrainPc → DrainPc
  | .waiting item _ => .waiting item true
  | pc => pc

/-- `release(worker.worker_id, elapsed_ms, job_id)` for a handle that `dispatch` returned. -/
def releaseSlot (s : State) (worker : WorkerRef) (elapsedMs : ℚ) (jobId : JobId) : Effect :=
  match s.workers[worker]? with
  | none => (s, [])
  | some w =>
      if w.workerId = "" then (s, [])
      else
        ({ s with
            workers := release s.workers w.workerId elapsedMs jobId
            drain := s.drain.notify },
          match releaseTarget s.workers w.workerId with
          | some i => [.released jobId i]
          | none => [])

/-! ### QueueManager._drain_loop -/

/-- `dispatch(item.request)` up to its `request_queue.put`. -/
def drainDispatch (s : State) (item : QueuedItem) : Effect :=
  match pickWorker s.workers with
  | none => ({ s with drain := .raised item }, [])
  | some w =>
      let (s₁, o) := takeSlot s item.request w
      ({ s₁ with drain := .putting item w }, o ++ [.drained item w])

/-- `wait_for_free_worker` on an item at hand, and its dispatch when a worker is free. -/
def drainItem (s : State) (item : QueuedItem) : Effect :=
  if allBusy s.workers then ({ s with drain := .waiting item false }, []) else drainDispatch s item

/-- The loop from its top: `get` suspends only on an empty queue. -/
def drainTop (s : State) : Effect :=
  match s.queue with
  | [] => ({ s with drain := .getting }, [])
  | item :: rest => drainItem { s with queue := rest } item

/-- The part of the loop after `dispatch` has returned. The future of an item is pending as long
as its handler awaits it: only the loop and a cancellation complete it. -/
def handOver (s : State) (item : QueuedItem) (worker : WorkerRef) : State :=
  let s₁ := match item.onComplete with
    | some cb =>
        s.setTask item.jobId (.collector worker item.request cb item.enqueuedAt .ready)
    | none => s
  match item.workerFuture with
  | some f =>
      match s₁.tasks f with
      | some (.stream r .awaiting) => s₁.setTask f (.stream r (.assigned worker))
      | _ => s₁
  | none => s₁

theorem handOver_frame (s : State) (item : QueuedItem) (w : WorkerRef) :
    handOver s item w = { s with tasks := (handOver s item w).tasks } := by
  unfold handOver
  dsimp only
  repeat' split
  all_goals rfl

@[simp] theorem handOver_queue (s : State) (item : QueuedItem) (w : WorkerRef) :
    (handOver s item w).queue = s.queue := by rw [handOver_frame]

@[simp] theorem handOver_workers (s : State) (item : QueuedItem) (w : WorkerRef) :
    (handOver s item w).workers = s.workers := by rw [handOver_frame]

/-- Run the drain loop until it suspends again. -/
def resumeDrain (s : State) : Option Effect :=
  match s.drain with
  | .getting => if s.queue = [] then none else some (drainTop s)
  | .waiting item true => some (drainItem s item)
  | .put item w => some (drainTop (handOver s item w))
  | _ => none

/-! ### Executor threads: puts and gets -/

def putRequest (s : State) (worker : WorkerRef) (request : Request) : State :=
  let p := s.processes worker
  { s with
    processes := Function.update s.processes worker
      { p with requestQueue := p.requestQueue ++ [request] } }

/-- The thread that runs the `put` of the drain loop's dispatch. -/
def drainPut (s : State) : Option Effect :=
  match s.drain with
  | .putting item w => some ({ putRequest s w item.request with drain := .put item w }, [])
  | _ => none

/-- The thread that runs the `put` of a `compute_latents` dispatch. -/
def clonePut (s : State) (jobId : JobId) : Option Effect :=
  match s.tasks jobId with
  | some (.clone w r .putting) => some ((putRequest s w r).setTask jobId (.clone w r .put), [])
  | _ => none

/-- A task blocked in `result_queue.get`, with the time its executor call was made. -/
def Task.getting? : Task → Option ℚ
  | .collector _ _ _ _ (.getting t0) => some t0
  | .stream _ (.getting _ t0) => some t0
  | .clone _ _ (.getting t0) => some t0
  | _ => none

/-- The task once its `get` has ended. -/
def Task.deliver (outcome : GetOutcome) : Task → Task
  | .collector w r cb at' (.getting t0) => .collector w r cb at' (.got t0 outcome)
  | .stream r (.getting w _) => .stream r (.got w outcome)
  | .clone w r (.getting _) => .clone w r (.got outcome)
  | t => t

/-- The thread takes the first message of the result queue. -/
def getReply (s : State) (jobId : JobId) : Option Effect :=
  match s.tasks jobId with
  | some t =>
      if t.getting?.isSome then
        match s.resultQueues t.request.resultQueue with
        | [] => none
        | m :: rest =>
            some ({ s.setTask jobId (t.deliver (.item m)) with
                resultQueues := Function.update s.resultQueues t.request.resultQueue rest },
              [.fetched t.request.resultQueue m])
      else none
  | none => none

/-- The thread's `get` raises `queue.Empty` at its deadline. -/
def getTimeout (cfg : Config) (s : State) (jobId : JobId) : Option Effect :=
  match s.tasks jobId with
  | some t =>
      match t.getting? with
      | some t0 =>
          if s.resultQueues t.request.resultQueue = [] ∧
              t0 + cfg.settings.workerTimeoutSeconds ≤ s.now then
            some (s.setTask jobId (t.deliver .empty), [])
          else none
      | none => none
  | none => none

/-- The thread's `get` raises any other exception, with any text. -/
def getError (s : State) (jobId : JobId) (text : String) : Option Effect :=
  match s.tasks jobId with
  | some t =>
      if t.getting?.isSome then some (s.setTask jobId (t.deliver (.error text)), []) else none
  | none => none

/-! ### QueueManager._collect_result -/

/-- The text the three owners give to a timeout. -/
def timeoutText (cfg : Config) : String :=
  s!"Worker did not respond within {cfg.settings.workerTimeoutSeconds}s — it may have crashed."

/-- The result that `_collect_result` goes on with; only a `SynthesisResult` is ever put on
the result queue of a `SynthesisRequest`. -/
def collectedResult (cfg : Config) (jobId : JobId) : GetOutcome → Option SynthesisResult
  | .item (.result r) => some r
  | .item _ => none
  | .empty => some { jobId, audio := none, error := some (timeoutText cfg) }
  | .error text => some { jobId, audio := none, error := some text }

/-- `mark_running`, observed when the record is there. -/
def markRunning (s : State) (jobId : JobId) (worker : WorkerRef) (elapsedMs : ℚ) : Effect :=
  match s.workers[worker]? with
  | none => (s, [])
  | some w =>
      ({ s with jobs := s.jobs.markRunning s.now jobId w.workerId w.gpuIndex elapsedMs },
        if jobId ∈ s.jobs.keys then [.marked jobId .running] else [])

/-- `mark_done`, observed when the record is there. -/
def markDone (s : State) (jobId : JobId) (path : Path) : Effect :=
  ({ s with jobs := s.jobs.markDone s.now jobId path },
    if jobId ∈ s.jobs.keys then [.marked jobId .done] else [])

def audioPath (outputsDir : Path) (jobId : JobId) (fmt : AudioFormat) : Path :=
  osPathJoin outputsDir (outputFilename jobId fmt)

/-- The callback up to its first suspension, and the collector's program point there. -/
def onComplete (s : State) (cb : OnComplete) (worker : WorkerRef) (result : SynthesisResult)
    (elapsedMs : ℚ) : Effect × CollectPc :=
  match cb with
  | .bridge jobId =>
      (({ s with
          resultFutures := match s.resultFutures jobId with
            | some _ => s.resultFutures
            | none => Function.update s.resultFutures jobId (some result) }, []), .ended)
  | .store jobId _ _ =>
      let (s₁, o) := markRunning s jobId worker elapsedMs
      match result.error with
      | some error =>
          if error ≠ "" then
            let (s₂, o') := markFailed s₁ jobId error
            ((s₂, o ++ o'), .ended)
          else ((s₁, o), .saving result false)
      | none => ((s₁, o), .saving result false)

/-- Run a collector task until it suspends again. -/
def resumeCollector (cfg : Config) (s : State) (jobId : JobId) (worker : WorkerRef)
    (request : Request) (cb : OnComplete) (enqueuedAt : ℚ) (pc : CollectPc) : Option Effect :=
  let at' := fun pc => Task.collector worker request cb enqueuedAt pc
  match pc with
  | .ready => some (s.setTask jobId (at' (.getting s.now)), [])
  | .got t0 outcome =>
      match collectedResult cfg request.jobId outcome with
      | none => none
      | some result =>
          let elapsedMs := (s.now - t0) * 1000
          let (s₁, o₁) := releaseSlot s worker elapsedMs request.jobId
          let ((s₂, o₂), next) := onComplete s₁ cb worker result elapsedMs
          some (s₂.setTask jobId (at' next), o₁ ++ [.completed cb worker result] ++ o₂)
  | .saved =>
      match cb with
      | .store job fmt dir =>
          let (s₁, o) := markDone s job (audioPath dir job fmt)
          some (s₁.setTask jobId (at' .ended), o)
      | .bridge _ => none
  | .saveRaised => some (s.setTask jobId (at' .ended), [])
  | _ => none

/-! ### The thread in `save_audio` -/

/-- `save_audio` has encoded the array and creates the file. -/
def saveOpen (s : State) (jobId : JobId) : Option Effect :=
  match s.tasks jobId with
  | some (.collector w r (.store job fmt dir) t (.saving result false)) =>
      if result.audio.isSome then
        some ({ s.setTask jobId (.collector w r (.store job fmt dir) t (.saving result true)) with
          files := s.files.write (audioPath dir job fmt) .partially }, [])
      else none
  | _ => none

/-- `save_audio` writes the data and returns. -/
def saveWrite (s : State) (jobId : JobId) : Option Effect :=
  match s.tasks jobId with
  | some (.collector w r (.store job fmt dir) t (.saving result true)) =>
      match result.audio with
      | some audio =>
          some ({ s.setTask jobId (.collector w r (.store job fmt dir) t .saved) with
            files := s.files.write (audioPath dir job fmt)
              (.complete audio fmt result.sampleRate) }, [])
      | none => none
  | _ => none

/-- `save_audio` raises, before or after it has created the file. -/
def saveRaise (s : State) (jobId : JobId) : Option Effect :=
  match s.tasks jobId with
  | some (.collector w r cb t (.saving _ _)) =>
      some (s.setTask jobId (.collector w r cb t .saveRaised), [])
  | _ => none

/-! ### stream_tts after its enqueue -/

/-- `dispatcher.release` in the `finally` of the chunk loop, and the program point after it. -/
def leaveStream (s : State) (jobId : JobId) (request : Request) (worker : WorkerRef)
    (next : StreamPc) : Effect :=
  let (s₁, o) := releaseSlot s worker 0 jobId
  (s₁.setTask jobId (.stream request next), o)

/-- Run a stream handler whose future or `get` is done until it suspends again. -/
def resumeStream (cfg : Config) (s : State) (jobId : JobId) (request : Request) (pc : StreamPc) :
    Option Effect :=
  let at' := fun pc => s.setTask jobId (.stream request pc)
  match pc with
  | .assigned w => some (at' (.getting w s.now), [])
  | .got w (.item (.chunk c)) => some (at' (.sending w c.chunk), [])
  | .got w (.item (.streamEnd e)) =>
      match e.error with
      | some text =>
          if text ≠ "" then some (at' (.closing w (.failed (pyTake text 300))), [])
          else some (at' (.closing w .done), [])
      | none => some (at' (.closing w .done), [])
  | .got w (.item _) => some (at' (.getting w s.now), [])
  | .got w .empty => some (at' (.closing w (.timedOut (timeoutText cfg))), [])
  | .got w (.error _) => some (leaveStream s jobId request w .reporting)
  | _ => none

def Closing.frame : Closing → Frame
  | .done => .done
  | .failed detail => .error detail
  | .timedOut detail => .error detail

/-- `arr.astype(np.float32).tobytes()` of a float32 array, least significant bytes first. -/
def Ndarray.tobytes (arr : Ndarray) : List UInt8 :=
  arr.data.flatMap fun (x : UInt32) =>
    [x.toUInt8, (x >>> 8).toUInt8, (x >>> 16).toUInt8, (x >>> 24).toUInt8]

/-- What goes over the WebSocket: bytes, or the text of a JSON object. -/
inductive WebSocketFrame
  | binary (bytes : List UInt8)
  | text (fields : List (String × String))
  deriving DecidableEq

/-- The argument of `send_bytes` or, before `json.dumps`, of `send_text`. -/
def Frame.onWire : Frame → WebSocketFrame
  | .bytes chunk => .binary chunk.tobytes
  | .done => .text [("status", "done")]
  | .error detail => .text [("status", "error"), ("detail", detail)]

/-- The send that the stream handler awaits returns. -/
def sent (s : State) (jobId : JobId) : Option Effect :=
  match s.tasks jobId with
  | some (.stream r (.sending w chunk)) =>
      some (s.setTask jobId (.stream r (.getting w s.now)), [.frame jobId (.bytes chunk)])
  | some (.stream r (.closing w how)) =>
      let (s₁, o) := leaveStream s jobId r w .ended
      some (s₁, .frame jobId how.frame :: o)
  | some (.stream r .reporting) =>
      some (s.setTask jobId (.stream r .ended), [.frame jobId (.error "Internal server error.")])
  | _ => none

/-- The send that the stream handler awaits raises; `disconnect` for `WebSocketDisconnect`.
`_close_error` suppresses the exception, the other sends let it out. -/
def sendFails (s : State) (jobId : JobId) (disconnect : Bool) : Option Effect :=
  let after := if disconnect then StreamPc.ended else .reporting
  match s.tasks jobId with
  | some (.stream r (.sending w _)) => some (leaveStream s jobId r w after)
  | some (.stream r (.closing w .done)) => some (leaveStream s jobId r w after)
  | some (.stream r (.closing w _)) => some (leaveStream s jobId r w .ended)
  | some (.stream r .reporting) => some (s.setTask jobId (.stream r .ended), [])
  | _ => none

/-- The stream handler is cancelled. Before the `try` nothing is released. -/
def cancelStream (s : State) (jobId : JobId) : Option Effect :=
  match s.tasks jobId with
  | some (.stream r .awaiting) => some (s.setTask jobId (.stream r .ended), [])
  | some (.stream r (.assigned _)) => some (s.setTask jobId (.stream r .ended), [])
  | some (.stream r (.getting w _)) => some (leaveStream s jobId r w .ended)
  | some (.stream r (.got w _)) => some (leaveStream s jobId r w .ended)
  | some (.stream r (.sending w _)) => some (leaveStream s jobId r w .ended)
  | some (.stream r (.closing w _)) => some (leaveStream s jobId r w .ended)
  | some (.stream r .reporting) => some (s.setTask jobId (.stream r .ended), [])
  | _ => none

/-! ### compute_latents after its put -/

/-- Run a `compute_latents` call until it suspends again; on a timeout it goes on with an
error result, on any other exception it raises, and it releases the slot in all cases. -/
def resumeClone (s : State) (jobId : JobId) (worker : WorkerRef) (request : Request)
    (pc : ClonePc) : Option Effect :=
  match pc with
  | .put => some (s.setTask jobId (.clone worker request (.getting s.now)), [])
  | .got _ =>
      let (s₁, o) := releaseSlot s worker 0 jobId
      some (s₁.setTask jobId (.clone worker request .ended), o)
  | _ => none

/-- Run the task of a request until it suspends again. -/
def resume (cfg : Config) (s : State) (jobId : JobId) : Option Effect :=
  match s.tasks jobId with
  | some (.collector w r cb t pc) => resumeCollector cfg s jobId w r cb t pc
  | some (.stream r pc) => resumeStream cfg s jobId r pc
  | some (.clone w r pc) => resumeClone s jobId w r pc
  | none => none

/-! ### Worker processes -/

/-- `request_queue.get()` of `worker_main`. -/
def workerTake (s : State) (worker : WorkerRef) : Option Effect :=
  match s.processes worker with
  | ⟨r :: rest, none⟩ =>
      some ({ s with processes := Function.update s.processes worker ⟨rest, some r⟩ }, [])
  | _ => none

def putMessage (s : State) (worker : WorkerRef) (request : Request) (m : Message) : Effect :=
  ({ s with
      resultQueues := Function.update s.resultQueues request.resultQueue
        (s.resultQueues request.resultQueue ++ [m]) },
    [.replied worker request m])

/-- `_handle_stream` puts a chunk. -/
def workerChunk (s : State) (worker : WorkerRef) (chunk : Ndarray) : Option Effect :=
  match s.processes worker with
  | ⟨_, some (.stream r)⟩ =>
      some (putMessage s worker (.stream r) (.chunk { jobId := r.jobId, chunk }))
  | _ => none

/-- How the model call of a handler ends: with arrays, or with a formatted traceback. -/
inductive ModelOutcome
  | arrays (first second : Ndarray)
  | raised (traceback : String)
  deriving DecidableEq

/-- The message with which the three handlers close a request. -/
def closingMessage : Request → ModelOutcome → Message
  | .synthesis r, .arrays audio _ => .result { jobId := r.jobId, audio := some audio }
  | .synthesis r, .raised tb => .result { jobId := r.jobId, audio := none, error := some tb }
  | .stream r, .arrays _ _ => .streamEnd { jobId := r.jobId }
  | .stream r, .raised tb => .streamEnd { jobId := r.jobId, error := some tb }
  | .computeLatents r, .arrays gpt emb =>
      .latents { jobId := r.jobId, gptCondLatent := some gpt, speakerEmbedding := some emb }
  | .computeLatents r, .raised tb => .latents { jobId := r.jobId, error := some tb }

/-- The handler of the current request puts its last message and returns. A traceback is
never empty. -/
def workerReply (s : State) (worker : WorkerRef) (outcome : ModelOutcome) : Option Effect :=
  match s.processes worker with
  | ⟨rest, some r⟩ =>
      if outcome = .raised "" then none
      else
        let (s₁, o) := putMessage s worker r (closingMessage r outcome)
        some ({ s₁ with processes := Function.update s.processes worker ⟨rest, none⟩ }, o)
  | _ => none

/-! ### Downloads and eviction -/

/-- The text of an optional string in an f-string. -/
def pyStr (value : Option String) : String := value.getD "None"

/-- The answer of `get_audio`: the path for a `FileResponse`, or an error. -/
def audioAnswer (files : Files) (jobId : JobId) (job : Option Job) : Except Exc Path :=
  match job with
  | none => .error (.http 404 s!"Job '{jobId}' not found.")
  | some job =>
      if job.status = .failed then
        .error (.http 500 s!"Job '{jobId}' failed: {pyStr job.error}")
      else if job.status ≠ .done then
        .error (.http 409 s!"Job '{jobId}' is not done yet (status: {job.status.value}).")
      else
        let path := orDefault job.audioPath ""
        if path = "" then
          .error (.http 410 s!"Audio for job '{jobId}' has already been downloaded and deleted.")
        else if files.isFile path then .ok path
        else .error (.http 500 "Audio file not found on disk.")

/-- `get_audio`; the call is numbered by those before it. -/
def getAudio (s : State) (jobId : JobId) : Effect :=
  let answer := audioAnswer s.files jobId (s.jobs.get? jobId)
  let pc : DownloadPc :=
    match answer with
    | .ok path => .opening jobId path
    | .error _ => .ended
  ({ s with downloads := s.downloads ++ [pc] }, [.audio s.downloads.length jobId answer])

/-- The `FileResponse` looks for its file and opens it. -/
def openFile (s : State) (get : Nat) : Option Effect :=
  match s.downloads[get]? with
  | some (.opening jobId path) =>
      if s.files.isFile path then
        some ({ s with downloads := s.downloads.set get (.sending jobId path) },
          [.served get jobId])
      else some ({ s with downloads := s.downloads.set get .ended }, [.vanished get jobId])
  | _ => none

/-- `_delete_after_send`; a failing `os.remove` is suppressed. -/
def deleteAfterSend (s : State) (get : Nat) (removeFails : Bool) : Option Effect :=
  match s.downloads[get]? with
  | some (.sending jobId path) =>
      some ({ s with
        downloads := s.downloads.set get .ended
        files := if removeFails then s.files else s.files.remove path
        jobs := s.jobs.clearAudioPath jobId }, [])
  | _ => none

/-- One pass of `_evict_expired`. -/
def evict (cfg : Config) (s : State) (failures : List Path) : Effect :=
  let (jobs, files) := evictExpired s.jobs s.files s.now cfg.settings.jobTtlSeconds failures
  ({ s with jobs, files }, [])

end XttsServer.Model
