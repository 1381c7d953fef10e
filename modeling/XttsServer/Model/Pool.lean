import XttsServer.Foundations.Executor
import XttsServer.Model.Step

/-!
The server with the default executor of its event loop. Each `run_in_executor`
submits a call; the steps of the server that stand for what such a call does can
only be taken by a thread that has taken the call up. The handlers that wait for
a `_run_synthesis` result are followed to their answer, since they encode in the
same executor.
-/

set_option autoImplicit false
set_option relaxedAutoImplicit false

namespace XttsServer.Model

open XttsServer.Foundations XttsServer.Foundations.Transition

/-! ### Calls -/

/-- `request_queue.put`, `result_queue.get`, `save_audio` and `audio_to_bytes`. -/
inductive CallKind
  | put
  | get
  | save
  | encode
  deriving DecidableEq

structure Call where
  kind : CallKind
  jobId : JobId
  deriving DecidableEq

def Task.call? : Task → Option CallKind
  | .collector _ _ _ _ (.getting _) => some .get
  | .collector _ _ _ _ (.saving _ _) => some .save
  | .stream _ (.getting _ _) => some .get
  | .clone _ _ .putting => some .put
  | .clone _ _ (.getting _) => some .get
  | _ => none

def State.call? (s : State) (jobId : JobId) : Option Call :=
  ((s.tasks jobId).bind Task.call?).map (⟨·, jobId⟩)

/-- What the drain loop waits for in `dispatch`. -/
def DrainPc.call? : DrainPc → Option Call
  | .putting item _ => some ⟨.put, item.jobId⟩
  | _ => none

/-- The call whose thread takes the step. -/
def Event.threadOf (s : State) : Event → Option Call
  | .drainPut => s.drain.call?
  | .clonePut jobId => some ⟨.put, jobId⟩
  | .getReply jobId => some ⟨.get, jobId⟩
  | .getTimeout jobId => some ⟨.get, jobId⟩
  | .getError jobId _ => some ⟨.get, jobId⟩
  | .saveOpen jobId => some ⟨.save, jobId⟩
  | .saveWrite jobId => some ⟨.save, jobId⟩
  | .saveRaise jobId => some ⟨.save, jobId⟩
  | _ => none

/-- The thread's call returns or raises with its step; `saveOpen` is in the middle of one. -/
def Event.returns : Event → Bool
  | .saveOpen _ => false
  | _ => true

def Event.timesOut : Event → Bool
  | .getTimeout _ => true
  | _ => false

/-- The call that the event loop has submitted in the step that led to `s`. -/
def Event.submitted (s : State) : Event → Option Call
  | .resumeDrain => s.drain.call?
  | .computeLatents jobId _ => s.call? jobId
  | .resume jobId => s.call? jobId
  | .sent jobId => s.call? jobId
  | _ => none

/-- The call whose future is cancelled along with the handler that awaits it. -/
def Event.cancelled : Event → Option Call
  | .cancelStream jobId => some ⟨.get, jobId⟩
  | _ => none

/-! ### _run_synthesis after its enqueue -/

/-- The bytes that `audio_to_bytes` returns. -/
structure AudioBytes where
  audio : Ndarray
  fmt : AudioFormat
  sampleRate : Nat
  deriving DecidableEq

structure SpeechAnswer where
  audioData : AudioBytes
  synthesisMs : ℚ
  language : String
  fmt : AudioFormat
  deriving DecidableEq

/-- Where `_run_synthesis` is suspended. -/
inductive SpeechPc
  /-- In `await result_future`. -/
  | awaiting
  | encoding (synthesisMs : ℚ) (result : SynthesisResult)
  /-- The executor's future is done; an error is the text of an exception. -/
  | encoded (synthesisMs : ℚ) (data : Except String AudioBytes)
  | ended
  deriving DecidableEq

/-- A `_run_synthesis` call with its local variables. -/
structure Speech where
  fmt : AudioFormat
  language : String
  tSubmit : ℚ
  pc : SpeechPc := .awaiting
  deriving DecidableEq

/-! ### The state -/

inductive PoolObs
  | server (obs : Obs)
  | submitted (call : Call)
  | started (call : Call)
  | returned (call : Call)
  /-- `_run_synthesis` returned or raised. -/
  | speech (jobId : JobId) (answer : Except Exc SpeechAnswer)
  deriving DecidableEq

/-- The server, and its executor with `threads` threads. -/
structure PoolState (threads : Nat) where
  server : State
  executor : Executor Call ℚ threads
  speech : JobId → Option Speech

variable {threads : Nat}

def PoolState.init (cfg : Config) : PoolState threads where
  server := .init cfg
  executor := .idle
  speech := fun _ => none

inductive PoolEvent
  | server (event : Event)
  /-- A thread takes up the next call. -/
  | start
  | resumeSpeech (jobId : JobId)
  /-- `audio_to_bytes` returns, or raises with a text. -/
  | encode (jobId : JobId) (raised : Option String)
  /-- The `get` of a handler that was cancelled meanwhile returns or raises. -/
  | abandoned (jobId : JobId)

abbrev PoolEffect (threads : Nat) := PoolState threads × List PoolObs

/-! ### Steps -/

/-- The handler of an accepted `_run_synthesis` request goes on to await its future. -/
def openSpeech (cfg : Config) (s : PoolState threads) (o : List Obs) :
    Event → JobId → Option Speech
  | .runSynthesis body _ jobId =>
      if o.any fun obs => match obs with
          | .accepted _ => true
          | _ => false then
        Function.update s.speech jobId (some
          { fmt := body.format, language := orDefault body.language cfg.settings.defaultLanguage,
            tSubmit := s.server.now })
      else s.speech
  | _ => s.speech

/-- A step of the server. A thread can take it only if it runs the call in question, and its `get`
can only time out when it has run for the timeout. -/
def serverStep (cfg : Config) (s : PoolState threads) (e : Event) : Option (PoolEffect threads) :=
  match step cfg s.server e with
  | none => none
  | some (server, o) =>
      match e.threadOf s.server with
      | some call =>
          match s.executor.started? call with
          | none => none
          | some t =>
              if e.timesOut ∧ s.server.now < t + cfg.settings.workerTimeoutSeconds then none
              else if e.returns then
                some ({ s with server, executor := s.executor.finish call },
                  o.map .server ++ [.returned call])
              else some ({ s with server }, o.map .server)
      | none =>
          let executor := match e.cancelled with
            | some call => s.executor.cancel call
            | none => s.executor
          let speech := openSpeech cfg s o e
          match e.submitted server with
          | some call =>
              some ({ server, speech, executor := executor.submit call },
                o.map .server ++ [.submitted call])
          | none => some ({ server, speech, executor }, o.map .server)

def startCall (s : PoolState threads) : Option (PoolEffect threads) :=
  match s.executor.start s.server.now with
  | some (call, executor) => some ({ s with executor }, [.started call])
  | none => none

def PoolState.setSpeech (s : PoolState threads) (jobId : JobId) (speech : Speech) :
    PoolState threads :=
  { s with speech := Function.update s.speech jobId (some speech) }

/-- Run a `_run_synthesis` call until it suspends again or answers. -/
def resumeSpeech (s : PoolState threads) (jobId : JobId) : Option (PoolEffect threads) :=
  match s.speech jobId with
  | some ⟨fmt, language, tSubmit, .awaiting⟩ =>
      match s.server.resultFutures jobId with
      | none => none
      | some result =>
          let synthesisMs := (s.server.now - tSubmit) * 1000
          let error := orDefault result.error ""
          if error ≠ "" then
            some (s.setSpeech jobId ⟨fmt, language, tSubmit, .ended⟩,
              [.speech jobId (.error (.http 500 s!"Synthesis failed: {pyTake error 300}"))])
          else
            let call : Call := ⟨.encode, jobId⟩
            some ({ s.setSpeech jobId ⟨fmt, language, tSubmit, .encoding synthesisMs result⟩ with
              executor := s.executor.submit call }, [.submitted call])
  | some ⟨fmt, language, tSubmit, .encoded synthesisMs (.ok audioData)⟩ =>
      some (s.setSpeech jobId ⟨fmt, language, tSubmit, .ended⟩,
        [.speech jobId (.ok { audioData, synthesisMs, language, fmt })])
  | some ⟨fmt, language, tSubmit, .encoded _ (.error text)⟩ =>
      some (s.setSpeech jobId ⟨fmt, language, tSubmit, .ended⟩,
        [.speech jobId (.error (.other text))])
  | _ => none

/-- The thread in `audio_to_bytes` is done; without an array it raises. -/
def encode (s : PoolState threads) (jobId : JobId) (raised : Option String) :
    Option (PoolEffect threads) :=
  let call : Call := ⟨.encode, jobId⟩
  match s.speech jobId, s.executor.started? call with
  | some ⟨fmt, language, tSubmit, .encoding synthesisMs result⟩, some _ =>
      let ends := fun data =>
        some ({ s.setSpeech jobId ⟨fmt, language, tSubmit, .encoded synthesisMs data⟩ with
          executor := s.executor.finish call }, [.returned call])
      match raised, result.audio with
      | some text, _ => ends (.error text)
      | none, some audio => ends (.ok ⟨audio, fmt, result.sampleRate⟩)
      | none, none => none
  | _, _ => none

/-- The thread of a cancelled `get` is done. It takes the first message or none; nobody reads this
result queue any more, so the queue is left as it is. -/
def abandoned (cfg : Config) (s : PoolState threads) (jobId : JobId) :
    Option (PoolEffect threads) :=
  let call : Call := ⟨.get, jobId⟩
  match s.server.tasks jobId, s.executor.started? call with
  | some task, some t =>
      if task.getting?.isNone ∧ (s.server.resultQueues task.request.resultQueue ≠ [] ∨
          t + cfg.settings.workerTimeoutSeconds ≤ s.server.now) then
        some ({ s with executor := s.executor.finish call }, [.returned call])
      else none
  | _, _ => none

def poolStep (cfg : Config) (s : PoolState threads) : PoolEvent → Option (PoolEffect threads)
  | .server event => serverStep cfg s event
  | .start => startCall s
  | .resumeSpeech jobId => resumeSpeech s jobId
  | .encode jobId raised => encode s jobId raised
  | .abandoned jobId => abandoned cfg s jobId

def pooled (cfg : Config) (threads : Nat) : Machine (PoolState threads) PoolEvent PoolObs :=
  ⟨PoolState.init cfg, poolStep cfg⟩

/-! ### The server in its executor -/

@[simp] def PoolObs.server? : PoolObs → Option Obs
  | .server obs => some obs
  | _ => none

abbrev serverTrace (tr : List PoolObs) : List Obs := tr.filterMap PoolObs.server?

end XttsServer.Model
