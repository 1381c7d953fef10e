import XttsServer.Model.Tasks

/-!
The transition system of the server: what a client, the event loop, an executor
thread, a worker process, a socket or the clock may do next.
-/

set_option autoImplicit false
set_option relaxedAutoImplicit false

namespace XttsServer.Model

open XttsServer.Foundations.Transition

inductive Event
  | tick (dt : ℚ)
  | submitTts (body : TtsRequest) (speakers : SpeakerView) (jobId : JobId) (raises : Bool)
  | submitBatch (items : List BatchItem) (speakers : SpeakerView) (ids : List JobId)
      (raiseAt : Option Nat)
  | runSynthesis (body : TtsRequest) (speakers : SpeakerView) (jobId : JobId)
  | streamTts (params : StreamRequest) (speakers : SpeakerView) (jobId : JobId)
  | computeLatents (jobId : JobId) (wavPath : Path)
  | resumeDrain
  | drainPut
  | clonePut (jobId : JobId)
  | resume (jobId : JobId)
  | getReply (jobId : JobId)
  | getTimeout (jobId : JobId)
  | getError (jobId : JobId) (text : String)
  | saveOpen (jobId : JobId)
  | saveWrite (jobId : JobId)
  | saveRaise (jobId : JobId)
  | sent (jobId : JobId)
  | sendFails (jobId : JobId) (disconnect : Bool)
  | cancelStream (jobId : JobId)
  | workerTake (worker : WorkerRef)
  | workerChunk (worker : WorkerRef) (chunk : Ndarray)
  | workerReply (worker : WorkerRef) (outcome : ModelOutcome)
  | getAudio (jobId : JobId)
  | openFile (get : Nat)
  | deleteAfterSend (get : Nat) (removeFails : Bool)
  | evict (failures : List Path)

/-- The ids drawn by a submission have to be fresh, and a `make_queue` that is said to raise
has to be reached. -/
def step (cfg : Config) (s : State) : Event → Option Effect
  | .tick dt => if 0 ≤ dt then some ({ s with now := s.now + dt }, []) else none
  | .submitTts body speakers jobId raises =>
      if s.fresh [jobId] then
        let (effect, answer) := submitTts cfg s body speakers jobId raises
        if raises ∧ answer ≠ .error .makeQueue then none else some effect
      else none
  | .submitBatch items speakers ids raiseAt =>
      if s.fresh ids ∧ ids.length = items.length then
        let (effect, answer) := submitBatch cfg s items speakers ids raiseAt
        if raiseAt.isSome ∧ answer ≠ .error .makeQueue then none else some effect
      else none
  | .runSynthesis body speakers jobId =>
      if s.fresh [jobId] then some (runSynthesis cfg s body speakers jobId) else none
  | .streamTts params speakers jobId =>
      if s.fresh [jobId] then some (streamTts cfg s params speakers jobId) else none
  | .computeLatents jobId wavPath =>
      if s.fresh [jobId] then some (computeLatents s jobId wavPath) else none
  | .resumeDrain => resumeDrain s
  | .drainPut => drainPut s
  | .clonePut jobId => clonePut s jobId
  | .resume jobId => resume cfg s jobId
  | .getReply jobId => getReply s jobId
  | .getTimeout jobId => getTimeout cfg s jobId
  | .getError jobId text => getError s jobId text
  | .saveOpen jobId => saveOpen s jobId
  | .saveWrite jobId => saveWrite s jobId
  | .saveRaise jobId => saveRaise s jobId
  | .sent jobId => sent s jobId
  | .sendFails jobId disconnect => sendFails s jobId disconnect
  | .cancelStream jobId => cancelStream s jobId
  | .workerTake worker => workerTake s worker
  | .workerChunk worker chunk => workerChunk s worker chunk
  | .workerReply worker outcome => workerReply s worker outcome
  | .getAudio jobId => some (getAudio s jobId)
  | .openFile get => openFile s get
  | .deleteAfterSend get removeFails => deleteAfterSend s get removeFails
  | .evict failures => some (evict cfg s failures)

def server (cfg : Config) : Machine State Event Obs := ⟨State.init cfg, step cfg⟩

end XttsServer.Model
