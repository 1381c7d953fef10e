import XttsServer.Model.State

/-!
The handlers that submit work: `submit_tts`, `submit_batch`, `_run_synthesis`,
`stream_tts` up to its enqueue and `compute_latents` up to its dispatch. None of
them suspends between its first check and its last enqueue, so each is one step.
-/

set_option autoImplicit false
set_option relaxedAutoImplicit false

namespace XttsServer.Model

/-- The effect of a step: the next state, and the observations in order. -/
abbrev Effect := State × List Obs

/-! ### QueueManager._enqueue -/

/-- `asyncio.Queue.full()`: a `maxsize` of zero or less means no bound. -/
def queueFull (cfg : Config) (s : State) : Bool :=
  0 < cfg.settings.maxQueueSize && cfg.settings.maxQueueSize ≤ s.queue.length

def queueFullText (cfg : Config) (s : State) : String :=
  s!"Request queue is full ({s.queue.length}/{cfg.settings.maxQueueSize}). Try again later."

/-- `_enqueue`: the item goes to the end of the queue, or the call raises. -/
def enqueue (cfg : Config) (s : State) (item : QueuedItem) : Effect × Except String Unit :=
  if queueFull cfg s then ((s, [.rejected item]), .error (queueFullText cfg s))
  else (({ s with queue := s.queue ++ [item] }, [.accepted item]), .ok ())

def jobItem (now : ℚ) (request : SynthesisRequest) (onComplete : OnComplete) : QueuedItem :=
  { request := .synthesis request, enqueuedAt := now, onComplete := some onComplete }

def streamItem (now : ℚ) (request : StreamSynthesisRequest) : QueuedItem :=
  { request := .stream request, enqueuedAt := now, workerFuture := some request.jobId }

/-- The worker request that the handlers build from a validated item. -/
def Resolved.toRequest (r : Resolved) (jobId : JobId) (resultQueue : QueueId) : SynthesisRequest :=
  { jobId, text := r.text, language := r.language, gptCondLatent := r.gptCondLatent,
    speakerEmbedding := r.speakerEmbedding, resultQueue, params := r.params }

/-! ### Jobs of `submit_tts` and `submit_batch` -/

/-- How the enqueuing of one job ended; `raised` is an exception of `make_queue`. -/
inductive Submitted
  | enqueued
  | full (text : String)
  | raised
  deriving DecidableEq

def createJob (s : State) (r : Resolved) (jobId : JobId) : State :=
  { s with
    used := jobId :: s.used
    jobs := s.jobs.create s.now jobId r.text r.language r.speakerId }

def makeQueue (s : State) : State := { s with nextQueue := s.nextQueue + 1 }

/-- Create the record, make the result queue, build request and callback, and enqueue. -/
def submitOne (cfg : Config) (s : State) (r : Resolved) (jobId : JobId) (raises : Bool) :
    Effect × Submitted :=
  let s₁ := createJob s r jobId
  if raises then ((s₁, [.created jobId]), .raised)
  else
    let item := jobItem s.now (r.toRequest jobId s.nextQueue)
      (.store jobId r.format cfg.settings.outputsDir)
    match enqueue cfg (makeQueue s₁) item with
    | ((s₂, o), .ok ()) => ((s₂, .created jobId :: o), .enqueued)
    | ((s₂, o), .error text) => ((s₂, .created jobId :: o), .full text)

/-- `mark_failed`, observed when the record is there. -/
def markFailed (s : State) (jobId : JobId) (error : String) : Effect :=
  ({ s with jobs := s.jobs.markFailed s.now jobId error },
    if jobId ∈ s.jobs.keys then [.marked jobId .failed] else [])

/-- The loop of `submit_batch` that marks every job created so far as failed. -/
def markAllFailed (error : String) : State → List JobId → Effect
  | s, [] => (s, [])
  | s, jobId :: rest =>
      let (s₁, o) := markFailed s jobId error
      let (s₂, o') := markAllFailed error s₁ rest
      (s₂, o ++ o')

/-- `submit_tts`, with the id it draws; `raises` tells whether `make_queue` raises. -/
def submitTts (cfg : Config) (s : State) (body : TtsRequest) (speakers : SpeakerView)
    (jobId : JobId) (raises : Bool) : Effect × Except Exc Unit :=
  match resolveTts cfg.settings speakers body with
  | .error e => ((s, [.tts jobId (.error e)]), .error e)
  | .ok r =>
      match submitOne cfg s r jobId raises with
      | ((s₁, o), .enqueued) => ((s₁, o ++ [.tts jobId (.ok ())]), .ok ())
      | ((s₁, o), .raised) =>
          ((s₁, o ++ [.tts jobId (.error .makeQueue)]), .error .makeQueue)
      | ((s₁, o), .full text) =>
          let (s₂, o') := markFailed s₁ jobId text
          ((s₂, o ++ o' ++ [.tts jobId (.error (.http 503 text))]), .error (.http 503 text))

/-- The create-and-enqueue loop of `submit_batch`. `created` are the jobs created so far;
`raiseAt` counts down to the iteration whose `make_queue` raises. -/
def submitLoop (cfg : Config) : State → List JobId → List (Resolved × JobId) → Option Nat →
    Effect × List JobId × Except Exc Unit
  | s, created, [], _ => ((s, []), created, .ok ())
  | s, created, (r, jobId) :: rest, raiseAt =>
      match submitOne cfg s r jobId (raiseAt = some 0) with
      | ((s₁, o), .enqueued) =>
          let ((s₂, o'), all, answer) :=
            submitLoop cfg s₁ (created ++ [jobId]) rest (raiseAt.map (· - 1))
          ((s₂, o ++ o'), all, answer)
      | ((s₁, o), .raised) => ((s₁, o), created ++ [jobId], .error .makeQueue)
      | ((s₁, o), .full text) =>
          let (s₂, o') := markAllFailed text s₁ (created ++ [jobId])
          ((s₂, o ++ o'), created ++ [jobId], .error (.http 503 text))

/-- `submit_batch`, with the ids it draws. -/
def submitBatch (cfg : Config) (s : State) (items : List BatchItem) (speakers : SpeakerView)
    (ids : List JobId) (raiseAt : Option Nat) : Effect × Except Exc Unit :=
  match resolveBatch cfg.settings speakers items with
  | .error e => ((s, [.batch [] (.error e)]), .error e)
  | .ok rs =>
      let ((s₁, o), created, answer) := submitLoop cfg s [] (rs.zip ids) raiseAt
      ((s₁, o ++ [.batch created answer]), answer)

structure BatchJobEntry where
  index : Nat
  jobId : JobId
  status : String
  pollUrl : String
  deriving DecidableEq

structure BatchResponse where
  total : Nat
  jobs : List BatchJobEntry
  deriving DecidableEq

/-- The response once the loop has enqueued all the jobs it has created. -/
def batchResponse (created : List JobId) : BatchResponse :=
  let jobs := created.zipIdx.map fun (jobId, index) =>
    { index, jobId, status := "pending", pollUrl := s!"/v1/jobs/{jobId}" }
  { total := jobs.length, jobs }

/-! ### Requests without a job record -/

/-- `_run_synthesis` up to `await result_future`. -/
def runSynthesis (cfg : Config) (s : State) (body : TtsRequest) (speakers : SpeakerView)
    (jobId : JobId) : Effect :=
  match resolveTts cfg.settings speakers body with
  | .error e => (s, [.speech jobId e])
  | .ok r =>
      let s₁ := makeQueue { s with used := jobId :: s.used }
      match enqueue cfg s₁ (jobItem s.now (r.toRequest jobId s.nextQueue) (.bridge jobId)) with
      | ((s₂, o), .ok ()) => (s₂, o)
      | ((s₂, o), .error text) => (s₂, o ++ [.speech jobId (.http 503 text)])

/-- `stream_tts` from the validated JSON up to `await worker_future`. -/
def streamTts (cfg : Config) (s : State) (params : StreamRequest) (speakers : SpeakerView)
    (jobId : JobId) : Effect :=
  let s₀ := { s with used := jobId :: s.used }
  match resolveStream cfg.settings speakers params with
  | .error e => (s₀, [.frame jobId (.error e.detail)])
  | .ok (language, gpt, emb) =>
      let request : StreamSynthesisRequest :=
        { jobId, text := params.text, language, gptCondLatent := gpt, speakerEmbedding := emb,
          resultQueue := s.nextQueue, params := params.params }
      match enqueue cfg (makeQueue s₀) (streamItem s.now request) with
      | ((s₁, o), .ok ()) => (s₁.setTask jobId (.stream (.stream request) .awaiting), o)
      | ((s₁, o), .error text) => (s₁, o ++ [.frame jobId (.error text)])

/-! ### dispatch -/

/-- The critical section of `dispatch` for a picked worker. -/
def takeSlot (s : State) (request : Request) (worker : WorkerRef) : Effect :=
  ({ s with workers := s.workers.modify worker fun w => w.acquire request.jobId s.now },
    [.dispatched request worker])

/-- `compute_latents` up to the `request_queue.put` of its dispatch. -/
def computeLatents (s : State) (jobId : JobId) (wavPath : Path) : Effect :=
  let request := Request.computeLatents { jobId, wavPath, resultQueue := s.nextQueue }
  let s₁ := makeQueue { s with used := jobId :: s.used }
  match pickWorker s.workers with
  | none => (s₁, [])
  | some w =>
      let (s₂, o) := takeSlot s₁ request w
      (s₂.setTask jobId (.clone w request .putting), o)

end XttsServer.Model
