import XttsServer.Foundations.Effects
import XttsServer.Model.Requests

/-!
The worker process: its request loop and the handlers of the three kinds of
request. The model, PyTorch, NumPy and the clock are parameters.
-/

set_option autoImplicit false
set_option relaxedAutoImplicit false

namespace XttsServer.Model

open XttsServer.Foundations.Effects

/-! ### What the process calls -/

/-- An `Exception`, with what `traceback.format_exc()` makes of it. -/
structure PyException where
  traceback : String
  nonempty : traceback ≠ ""
  deriving DecidableEq

/-- A call into a library, in the world `σ` that the model, the GPU and the clock make up. -/
abbrev LibCall (σ α : Type) := σ → Except PyException α × σ

/-- A generator: what each `next` on it does that is not the last, and how it ends. A `next`
that raises ends it before its time. -/
structure Generator (σ κ : Type) where
  yields : List (LibCall σ κ)
  finish : LibCall σ Unit

/-- The library calls of the handlers, over the objects `κ` of the libraries. -/
structure Runtime (σ κ : Type) where
  /-- `time.monotonic()`. -/
  monotonic : σ → ℚ × σ
  /-- `torch.from_numpy(arr).to(device)`. -/
  toDevice : Ndarray → String → LibCall σ κ
  /-- Making and entering `torch.autocast(...)`, and leaving it. -/
  autocastEnter : Bool → LibCall σ Unit
  autocastExit : LibCall σ Unit
  inference : String → String → κ → κ → InferenceParams → LibCall σ κ
  /-- `outputs["wav"]`. -/
  wav : κ → LibCall σ κ
  inferenceStream : String → String → κ → κ → InferenceParams → LibCall σ (Generator σ κ)
  getConditioningLatents : List Path → LibCall σ (κ × κ)
  /-- `np.array(x, dtype=np.float32)`, an exception of which is the object's own. -/
  toFloat32 : κ → Except PyException Ndarray
  /-- `x.cpu().numpy()`. -/
  cpuNumpy : κ → LibCall σ Ndarray
  /-- `torch.cuda.memory_allocated(gpu_index)`. -/
  memoryAllocated : Int → LibCall σ Nat
  /-- The `TypeError` of `len()` for an array without a dimension. -/
  unsizedObject : PyException

/-- The arguments of `worker_main` that its handlers read, and its `device`. -/
structure WorkerArgs where
  device : String
  gpuIndex : Int
  fp16 : Bool
  deriving DecidableEq

/-! ### What the process does -/

/-- What a handler does that the rest of the program, or its log, can tell. -/
inductive Act (κ : Type)
  | put (queue : QueueId) (message : Message)
  /-- A call raised. -/
  | raised (e : PyException)
  /-- The generator of `inference_stream` yielded. -/
  | yielded (chunk : κ)
  deriving DecidableEq

abbrev Worker (σ κ α : Type) := Proc σ (Act κ) PyException α

variable {σ κ α : Type}

@[simp] def Act.put? : Act κ → Option (QueueId × Message)
  | .put q m => some (q, m)
  | _ => none

@[simp] def Act.raised? : Act κ → Option PyException
  | .raised e => some e
  | _ => none

@[simp] def Act.yielded? : Act κ → Option κ
  | .yielded x => some x
  | _ => none

def puts (acts : List (Act κ)) : List (QueueId × Message) := acts.filterMap Act.put?

def raisedIn (acts : List (Act κ)) : List PyException := acts.filterMap Act.raised?

def yieldedIn (acts : List (Act κ)) : List κ := acts.filterMap Act.yielded?

@[simp] theorem puts_nil : puts ([] : List (Act κ)) = [] := rfl

@[simp] theorem raisedIn_nil : raisedIn ([] : List (Act κ)) = [] := rfl

@[simp] theorem yieldedIn_nil : yieldedIn ([] : List (Act κ)) = [] := rfl

@[simp] theorem puts_append (o o' : List (Act κ)) : puts (o ++ o') = puts o ++ puts o' :=
  List.filterMap_append

@[simp] theorem raisedIn_append (o o' : List (Act κ)) :
    raisedIn (o ++ o') = raisedIn o ++ raisedIn o' :=
  List.filterMap_append

@[simp] theorem yieldedIn_append (o o' : List (Act κ)) :
    yieldedIn (o ++ o') = yieldedIn o ++ yieldedIn o' :=
  List.filterMap_append

@[simp] theorem puts_cons (act : Act κ) (o : List (Act κ)) :
    puts (act :: o) = act.put?.toList ++ puts o := by
  cases act <;> rfl

@[simp] theorem raisedIn_cons (act : Act κ) (o : List (Act κ)) :
    raisedIn (act :: o) = act.raised?.toList ++ raisedIn o := by
  cases act <;> rfl

@[simp] theorem yieldedIn_cons (act : Act κ) (o : List (Act κ)) :
    yieldedIn (act :: o) = act.yielded?.toList ++ yieldedIn o := by
  cases act <;> rfl

def call (f : LibCall σ α) : Worker σ κ α := Proc.call .raised f

/-- A call that leaves the world as it is. -/
def callPure (r : Except PyException α) : Worker σ κ α := call fun s => (r, s)

theorem callPure_ok_bind {β : Type} (a : α) (f : α → Worker σ κ β) :
    (callPure (.ok a) >>= f) = f a := rfl

/-- A call that does not raise. -/
def read (f : σ → α × σ) : Worker σ κ α := call fun s => (.ok (f s).1, (f s).2)

def put (queue : QueueId) (message : Message) : Worker σ κ Unit := Proc.tell (.put queue message)

def withAutocast (py : Runtime σ κ) (fp16 : Bool) (body : Worker σ κ α) : Worker σ κ α :=
  Proc.within (call (py.autocastEnter fp16)) (call py.autocastExit) body

def pyLen (py : Runtime σ κ) (arr : Ndarray) : Except PyException Nat :=
  match arr.shape with
  | [] => .error py.unsizedObject
  | n :: _ => .ok n

def toTensor (py : Runtime σ κ) (arr : Ndarray) (device : String) : Worker σ κ κ :=
  call (py.toDevice arr device)

/-- `(time.monotonic() - t0) * 1000`. -/
def elapsedSince (py : Runtime σ κ) (t0 : ℚ) : Worker σ κ ℚ := do
  let now ← read py.monotonic
  return (now - t0) * 1000

/-! ### The handlers -/

/-- The body of the `try` of `_handle_synthesis` up to its `put`. -/
def synthesize (py : Runtime σ κ) (args : WorkerArgs) (request : SynthesisRequest) (t0 : ℚ) :
    Worker σ κ (Ndarray × ℚ) := do
  let gptCondLatent ← toTensor py request.gptCondLatent args.device
  let speakerEmbedding ← toTensor py request.speakerEmbedding args.device
  let outputs ← withAutocast py args.fp16 (call (py.inference request.text request.language
    gptCondLatent speakerEmbedding request.params))
  let wav ← call (py.wav outputs)
  let audio ← callPure (py.toFloat32 wav)
  let elapsedMs ← elapsedSince py t0
  let _ ← callPure (pyLen py audio)
  if args.device.startsWith "cuda" then
    let _ ← call (py.memoryAllocated args.gpuIndex)
  return (audio, elapsedMs)

def handleSynthesis (py : Runtime σ κ) (args : WorkerArgs) (request : SynthesisRequest) :
    Worker σ κ ℚ := do
  let t0 ← read py.monotonic
  tryCatch (do
    let (audio, elapsedMs) ← synthesize py args request t0
    put request.resultQueue (.result { jobId := request.jobId, audio := some audio })
    return elapsedMs) fun e => do
    let elapsedMs ← elapsedSince py t0
    put request.resultQueue
      (.result { jobId := request.jobId, audio := none, error := some e.traceback })
    return elapsedMs

/-- The `for` loop of `_handle_stream` over what is left of its generator. -/
def streamChunks (py : Runtime σ κ) (request : StreamSynthesisRequest) (finish : LibCall σ Unit) :
    List (LibCall σ κ) → Worker σ κ Unit
  | [] => call finish
  | next :: rest => do
      let chunk ← call next
      Proc.tell (.yielded chunk)
      let chunkNp ← callPure (py.toFloat32 chunk)
      put request.resultQueue (.chunk { jobId := request.jobId, chunk := chunkNp })
      streamChunks py request finish rest

/-- The body of the `try` of `_handle_stream` up to its last `put`. -/
def streamBody (py : Runtime σ κ) (args : WorkerArgs) (request : StreamSynthesisRequest)
    (t0 : ℚ) : Worker σ κ ℚ := do
  let gptCondLatent ← toTensor py request.gptCondLatent args.device
  let speakerEmbedding ← toTensor py request.speakerEmbedding args.device
  withAutocast py args.fp16 (do
    let chunks ← call (py.inferenceStream request.text request.language gptCondLatent
      speakerEmbedding request.params)
    streamChunks py request chunks.finish chunks.yields)
  elapsedSince py t0

def handleStream (py : Runtime σ κ) (args : WorkerArgs) (request : StreamSynthesisRequest) :
    Worker σ κ ℚ := do
  let t0 ← read py.monotonic
  tryCatch (do
    let elapsedMs ← streamBody py args request t0
    put request.resultQueue (.streamEnd { jobId := request.jobId })
    return elapsedMs) fun e => do
    let elapsedMs ← elapsedSince py t0
    put request.resultQueue
      (.streamEnd { jobId := request.jobId, error := some e.traceback })
    return elapsedMs

/-- The body of the `try` of `_handle_compute_latents`. -/
def conditioningLatents (py : Runtime σ κ) (request : ComputeLatentsRequest) (t0 : ℚ) :
    Worker σ κ LatentsResult := do
  let (gptCondLatent, speakerEmbedding) ← call (py.getConditioningLatents [request.wavPath])
  let _ ← elapsedSince py t0
  let gptNp ← call (py.cpuNumpy gptCondLatent)
  let embNp ← call (py.cpuNumpy speakerEmbedding)
  return { jobId := request.jobId, gptCondLatent := some gptNp, speakerEmbedding := some embNp }

/-- `_handle_compute_latents`, whose one `put` is outside of its `try`. -/
def handleComputeLatents (py : Runtime σ κ) (request : ComputeLatentsRequest) :
    Worker σ κ Unit := do
  let t0 ← read py.monotonic
  let result ← tryCatch (conditioningLatents py request t0) fun e => do
    let _ ← elapsedSince py t0
    return { jobId := request.jobId, error := some e.traceback }
  put request.resultQueue (.latents result)

/-! ### worker_main -/

/-- What `request_queue.get()` returns, when it does not raise. -/
inductive QueueEntry
  | request (request : Request)
  /-- `None`. -/
  | sentinel
  /-- An object of another class. -/
  | unknown
  deriving DecidableEq

structure WorkerStats where
  totalRequests : Nat := 0
  totalSynthesisMs : ℚ := 0
  deriving DecidableEq

def WorkerStats.count (stats : WorkerStats) (ms : ℚ) : WorkerStats :=
  { totalRequests := stats.totalRequests + 1, totalSynthesisMs := stats.totalSynthesisMs + ms }

def WorkerStats.avg (stats : WorkerStats) : ℚ :=
  if stats.totalRequests ≠ 0 then stats.totalSynthesisMs / stats.totalRequests else 0

/-- The branch of the loop for a request. -/
def handle (py : Runtime σ κ) (args : WorkerArgs) (stats : WorkerStats) :
    Request → Worker σ κ WorkerStats
  | .synthesis r => do
      let ms ← handleSynthesis py args r
      return stats.count ms
  | .stream r => do
      let ms ← handleStream py args r
      return stats.count ms
  | .computeLatents r => do
      handleComputeLatents py r
      return stats

/-- How the loop stands when nothing more has been put for it. -/
inductive LoopEnd
  /-- It has left at the sentinel, with its average, and has not read the rest. -/
  | shutdown (avg : ℚ) (unread : List QueueEntry)
  /-- It is in `request_queue.get()`. -/
  | waiting (stats : WorkerStats)
  deriving DecidableEq

/-- The request loop of `worker_main` over what is put for it. -/
def requestLoop (py : Runtime σ κ) (args : WorkerArgs) (stats : WorkerStats) :
    List QueueEntry → Worker σ κ LoopEnd
  | [] => return .waiting stats
  | .sentinel :: rest => return .shutdown stats.avg rest
  | .unknown :: rest => requestLoop py args stats rest
  | .request r :: rest => do
      let stats' ← handle py args stats r
      requestLoop py args stats' rest

/-- `worker_main` once the model is loaded. -/
def workerMain (py : Runtime σ κ) (args : WorkerArgs) (entries : List QueueEntry) :
    Worker σ κ LoopEnd :=
  requestLoop py args {} entries

end XttsServer.Model
