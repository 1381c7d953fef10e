import Mathlib.Logic.Function.Basic
import XttsServer.Foundations.Transition
import XttsServer.Model.Dispatcher
import XttsServer.Model.JobStore

/-!
The state of the whole server between two suspension points of its event loop:
the parent's data, the program point of every task that serves a request, the
executor threads these tasks wait for, and the worker processes.
-/

set_option autoImplicit false
set_option relaxedAutoImplicit false

namespace XttsServer.Model

open XttsServer.Foundations (Dict)

/-! ### queue_manager.py: items and callbacks -/

/-- The `on_complete` closures. Those of `submit_tts` and `submit_batch` have one body and
are given by the variables it captures; the one of `_run_synthesis` resolves the future of
the handler that waits for `jobId`. -/
inductive OnComplete
  | store (jobId : JobId) (fmt : AudioFormat) (outputsDir : Path)
  | bridge (jobId : JobId)
  deriving DecidableEq

/-- `_QueuedItem`. A `worker_future` is named after the stream it was created for. -/
structure QueuedItem where
  request : Request
  enqueuedAt : ℚ
  onComplete : Option OnComplete := none
  workerFuture : Option JobId := none
  deriving DecidableEq

def QueuedItem.jobId (item : QueuedItem) : JobId := item.request.jobId

/-- Where `_drain_loop` is suspended. -/
inductive DrainPc
  /-- In `await self._queue.get()`. -/
  | getting
  /-- In `cond.wait()`; `notified` once a `notify_all` has resolved its future. -/
  | waiting (item : QueuedItem) (notified : Bool)
  /-- In `dispatch`, before an executor thread has run `request_queue.put`. -/
  | putting (item : QueuedItem) (worker : WorkerRef)
  /-- In `dispatch`, after that. -/
  | put (item : QueuedItem) (worker : WorkerRef)
  /-- Ended by the `RuntimeError` that `dispatch` raises without workers. -/
  | raised (item : QueuedItem)
  deriving DecidableEq

/-! ### The tasks that own a request after its dispatch -/

/-- How an executor thread's `result_queue.get(timeout=...)` ends. -/
inductive GetOutcome
  | item (message : Message)
  | empty
  | error (text : String)
  deriving DecidableEq

/-- Where `_collect_result` and the callback it awaits are suspended. -/
inductive CollectPc
  | ready
  | getting (t0 : ℚ)
  | got (t0 : ℚ) (outcome : GetOutcome)
  /-- In `save_audio`; `opened` once the file has been created. -/
  | saving (result : SynthesisResult) (opened : Bool)
  | saved
  | saveRaised
  | ended
  deriving DecidableEq

/-- How the chunk loop of `stream_tts` came to its terminal frame. -/
inductive Closing
  | done
  | failed (detail : String)
  | timedOut (detail : String)
  deriving DecidableEq

/-- Where `stream_tts` is suspended. -/
inductive StreamPc
  /-- In `await worker_future`, with the future pending. -/
  | awaiting
  /-- In `await worker_future`, with the future resolved. -/
  | assigned (worker : WorkerRef)
  | getting (worker : WorkerRef) (t0 : ℚ)
  | got (worker : WorkerRef) (outcome : GetOutcome)
  | sending (worker : WorkerRef) (chunk : Ndarray)
  | closing (worker : WorkerRef) (how : Closing)
  /-- In the `_close_error` of the outermost `except`. -/
  | reporting
  | ended
  deriving DecidableEq

/-- Where `compute_latents` is suspended. -/
inductive ClonePc
  | putting
  | put
  | getting (t0 : ℚ)
  | got (outcome : GetOutcome)
  | ended
  deriving DecidableEq

/-- The task that serves a request: the collector that the drain loop spawns for a job, the
WebSocket handler of a stream, or the caller of `compute_latents`. -/
inductive Task
  | collector (worker : WorkerRef) (request : Request) (onComplete : OnComplete)
      (enqueuedAt : ℚ) (pc : CollectPc)
  | stream (request : Request) (pc : StreamPc)
  | clone (worker : WorkerRef) (request : Request) (pc : ClonePc)
  deriving DecidableEq

def Task.request : Task → Request
  | .collector _ r _ _ _ => r
  | .stream r _ => r
  | .clone _ r _ => r

def Task.finished : Task → Bool
  | .collector _ _ _ _ .ended => true
  | .stream _ .ended => true
  | .clone _ _ .ended => true
  | _ => false

/-! ### Processes and downloads -/

/-- A worker process with its `request_queue`. -/
structure Process where
  requestQueue : List Request := []
  current : Option Request := none
  deriving DecidableEq

/-- The requests that were put for the process and that it has not finished. -/
def Process.backlog (p : Process) : List Request := p.current.toList ++ p.requestQueue

/-- Where the response of a `get_audio` call stands. -/
inductive DownloadPc
  /-- The handler has returned the `FileResponse`; the file is not open yet. -/
  | opening (jobId : JobId) (path : Path)
  /-- The file is open; `_delete_after_send` has not run. -/
  | sending (jobId : JobId) (path : Path)
  | ended
  deriving DecidableEq

/-! ### Observations -/

inductive Frame
  | bytes (chunk : Ndarray)
  | done
  | error (detail : String)
  deriving DecidableEq

/-- What a step does that a client, a log or a worker can tell. -/
inductive Obs
  /-- `JobStore.create` added a record. -/
  | created (jobId : JobId)
  /-- A `mark_*` method found its record and set this status. -/
  | marked (jobId : JobId) (status : JobStatus)
  /-- `put_nowait` took the item, or raised. -/
  | accepted (item : QueuedItem)
  | rejected (item : QueuedItem)
  /-- `submit_batch` answered, having created these jobs. -/
  | batch (created : List JobId) (answer : Except Exc Unit)
  /-- `submit_tts` answered. -/
  | tts (jobId : JobId) (answer : Except Exc Unit)
  /-- `_run_synthesis` raised before it had a result to wait for. -/
  | speech (jobId : JobId) (raised : Exc)
  /-- The drain loop called `dispatch` for the item it held. -/
  | drained (item : QueuedItem) (worker : WorkerRef)
  /-- `dispatch` took a slot of the worker for the request. -/
  | dispatched (request : Request) (worker : WorkerRef)
  /-- `release` gave back a slot of the worker for the job. -/
  | released (jobId : JobId) (worker : WorkerRef)
  /-- `_collect_result` called the callback. -/
  | completed (callback : OnComplete) (worker : WorkerRef) (result : SynthesisResult)
  /-- The worker process put a message on the request's `result_queue`. -/
  | replied (worker : WorkerRef) (request : Request) (message : Message)
  /-- An executor thread's `get` on the queue returned a message. -/
  | fetched (queue : QueueId) (message : Message)
  /-- The WebSocket of the stream was sent a frame. -/
  | frame (jobId : JobId) (frame : Frame)
  /-- The call number `get` of `get_audio` answered: with an error, or with a `FileResponse` for
  this path. -/
  | audio (get : Nat) (jobId : JobId) (answer : Except Exc Path)
  /-- The response opened its file, or found that it had vanished. -/
  | served (get : Nat) (jobId : JobId)
  | vanished (get : Nat) (jobId : JobId)
  deriving DecidableEq

/-! ### The state -/

/-- The configuration of a server: its settings, whether CUDA is available, and what the
validation of `Settings` has made sure of. -/
structure Config where
  settings : Settings
  cudaOk : Bool := true
  workers_valid : settings.workersPerGpuList ≠ [] ∧ ∀ n ∈ settings.workersPerGpuList, 1 ≤ n

structure State where
  /-- `time.monotonic()`. -/
  now : ℚ
  /-- The ids that `uuid.uuid4()` has drawn. -/
  used : List JobId
  /-- The queue that the next `make_queue` returns. -/
  nextQueue : QueueId
  resultQueues : QueueId → List Message
  workers : List WorkerHandle
  processes : WorkerRef → Process
  queue : List QueuedItem
  drain : DrainPc
  tasks : JobId → Option Task
  /-- The `result_future`s that `_run_synthesis` callbacks have resolved. -/
  resultFutures : JobId → Option SynthesisResult
  jobs : JobStore
  files : Files
  /-- The responses of the `get_audio` calls so far, in order. -/
  downloads : List DownloadPc

def State.init (cfg : Config) : State where
  now := 0
  used := []
  nextQueue := 0
  resultQueues := fun _ => []
  workers := start cfg.cudaOk cfg.settings.workersPerGpuList
  processes := fun _ => {}
  queue := []
  drain := .getting
  tasks := fun _ => none
  resultFutures := fun _ => none
  jobs := .empty
  files := fun _ => none
  downloads := []

def State.setTask (s : State) (jobId : JobId) (task : Task) : State :=
  { s with tasks := Function.update s.tasks jobId (some task) }

/-- A string over the characters of a UUID, which `str(uuid.uuid4())` always is. -/
def isUuid (jobId : JobId) : Bool :=
  jobId ≠ "" && jobId.toList.all fun c => c.isDigit || ('a' ≤ c && c ≤ 'f') || c = '-'

/-- The ids are drawn by `uuid.uuid4()` now: none has been drawn before. -/
def State.fresh (s : State) (ids : List JobId) : Bool :=
  ids.Nodup && ids.all fun j => isUuid j && j ∉ s.used

end XttsServer.Model
