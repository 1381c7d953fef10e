import XttsServer.Model.SpeakerServer
import XttsServer.Model.Step

/-!
The dispatcher and the speaker store in one process. A clone request writes its
upload, waits in `compute_latents` for what a worker makes of the file, and goes
on to `register`; the steps of all other requests may come in between.
-/

set_option autoImplicit false
set_option relaxedAutoImplicit false

namespace XttsServer.Model

open XttsServer.Foundations XttsServer.Foundations.Transition

/-- `os.path.join(tmp_dir, ..)`, where `tmp_dir` is `os.path.join(SPEAKERS_DIR, ".tmp")`. -/
def SpeakersDir.tmpPath (d : SpeakersDir) (tmp : Component) : Path :=
  osPathJoin (osPathJoin d.path tmpDir.name) tmp.name

def SpeakersDir.tmpFile (d : SpeakersDir) (tmp : Component) : List Component :=
  d.root ++ [tmpDir] ++ [tmp]

structure CloneState where
  server : State
  speakers : SpeakerState
  /-- The `job_id` of the clone request that wrote the temporary file. -/
  jobIds : Component → Option JobId

inductive CloneObs
  | server (obs : Obs)
  | speakers (obs : SpeakerObs)
  /-- A clone request has written its upload and calls `compute_latents` with this id. -/
  | uploaded (jobId : JobId) (name : SpeakerName) (audio : List UInt8)
  /-- What the clone request with this id does for the name after that call. -/
  | cloned (jobId : JobId) (name : SpeakerName) (obs : SpeakerObs)

abbrev CloneEffect := CloneState × List CloneObs

inductive CloneEvent
  /-- The look-up of a speaker by a synthesis request is an event of the store, and the rest of the
  request is one of the server, with whatever the look-up found. -/
  | server (event : Event)
  | speakers (event : SpeakerEvent)
  /-- From the end of `await audio.read()` to `await compute_latents(..)`. -/
  | upload (i : Nat) (audio : List UInt8) (tmp : Component) (fails : Bool) (jobId : JobId)
  /-- `compute_latents` goes on to its end, and the handler to its answer. -/
  | finish (i : Nat) (createdAt : String) (stops : Option Nat)

/-- What `compute_latents` returns or raises; only a `LatentsResult` is ever put on the result
queue of a `ComputeLatentsRequest`. -/
def computedLatents (cfg : Config) (jobId : JobId) : GetOutcome → Option (Except Exc LatentsResult)
  | .item (.latents result) => some (.ok result)
  | .item _ => none
  | .empty => some (.ok { jobId, error := some (timeoutText cfg) })
  | .error text => some (.error (.other text))

def Event.ofClone (s : State) : Event → Bool
  | .computeLatents _ _ => true
  | .resume jobId =>
      match s.tasks jobId with
      | some (.clone _ _ (.got _)) => true
      | _ => false
  | _ => false

/-- The step is one of `upload` and `finish`, or another process. -/
def SpeakerEvent.ofClone : SpeakerEvent → Bool
  | .startup _ => true
  | .cloneUpload _ _ _ _ => true
  | .cloneLatents _ _ _ _ => true
  | .cloneRaises _ _ => true
  | _ => false

def CloneTask.name : CloneTask → SpeakerName
  | .uploading n => n
  | .computing n _ => n

variable (cfg : Config) (scfg : SpeakerConfig)

/-- The part of `upload` for the request at `i`. Without workers `dispatch` raises. -/
def CloneState.upload (s : CloneState) (i : Nat) (audio : List UInt8) (tmp : Component)
    (fails : Bool) (jobId : JobId) : Option CloneEffect :=
  match s.speakers.clones[i]?, s.speakers.cloneUpload scfg i audio tmp fails with
  | some task, some (speakers, []) =>
      match step cfg s.server (.computeLatents jobId (scfg.dir.tmpPath tmp)) with
      | none => none
      | some (server, o) =>
          let asked := .uploaded jobId task.name audio :: o.map CloneObs.server
          match server.tasks jobId with
          | some _ =>
              some (⟨server, speakers, Function.update s.jobIds tmp (some jobId)⟩, asked)
          | none =>
              (speakers.cloneRaises i
                (.other "No workers available — did you call dispatcher.start()?")).map
                  fun (speakers, o') =>
                    ({ s with server, speakers }, asked ++ o'.map (.cloned jobId task.name))
  | _, some (speakers, o) => some ({ s with speakers }, o.map .speakers)
  | _, none => none

/-- The handler goes on with what `compute_latents` returned or raised. -/
def SpeakerState.goOn (s : SpeakerState) (i : Nat) (createdAt : String) (stops : Option Nat) :
    Except Exc LatentsResult → Option SpeakerEffect
  | .ok result => s.cloneLatents scfg i result createdAt stops
  | .error e => s.cloneRaises i e

/-- The part of `finish` for the request at `i`. -/
def CloneState.finish (s : CloneState) (i : Nat) (createdAt : String) (stops : Option Nat) :
    Option CloneEffect :=
  match s.speakers.clones[i]? with
  | some (.computing n tmp) =>
      match s.jobIds tmp with
      | none => none
      | some jobId =>
          match s.server.tasks jobId with
          | some (.clone _ _ (.got outcome)) =>
              match step cfg s.server (.resume jobId), computedLatents cfg jobId outcome with
              | some (server, o), some result =>
                  (s.speakers.goOn scfg i createdAt stops result).map fun (speakers, o') =>
                    ({ s with server, speakers }, o.map .server ++ o'.map (.cloned jobId n))
              | _, _ => none
          | _ => none
  | _ => none

def cloneStep (s : CloneState) : CloneEvent → Option CloneEffect
  | .server event =>
      if event.ofClone s.server then none
      else
        (step cfg s.server event).map fun (server, o) => ({ s with server }, o.map .server)
  | .speakers event =>
      if event.ofClone then none
      else
        (speakerStep scfg s.speakers event).map fun (speakers, o) =>
          ({ s with speakers }, o.map .speakers)
  | .upload i audio tmp fails jobId => s.upload cfg scfg i audio tmp fails jobId
  | .finish i createdAt stops => s.finish cfg scfg i createdAt stops

/-- A process with this store, when it begins to serve. -/
def cloneServer (store : SpeakerStore) : Machine CloneState CloneEvent CloneObs where
  init := ⟨State.init cfg, ⟨store, fun _ => [], []⟩, fun _ => none⟩
  step := cloneStep cfg scfg

/-! ### What a worker reads -/

def FileContent.audio? : FileContent → Option (List UInt8)
  | .audio bytes => some bytes
  | _ => none

def SpeakersDir.upload? (d : SpeakersDir) (disk : Disk) (tmp : Component) : Option (List UInt8) :=
  (disk.read (d.tmpFile tmp)).bind FileContent.audio?

/-- What a worker answers to a `ComputeLatentsRequest` it has made of the audio in the file that the
request names; `computes` is what the model may make of audio. -/
def computesFromFile (computes : List UInt8 → ModelOutcome → Prop) (s : CloneState) :
    CloneEvent → Prop
  | .server (.workerReply w outcome) =>
      match (s.server.processes w).current with
      | some (.computeLatents r) =>
          ∀ tmp ∈ s.speakers.store.disk.children (scfg.dir.root ++ [tmpDir]),
            scfg.dir.tmpPath tmp = r.wavPath →
              ∀ audio ∈ scfg.dir.upload? s.speakers.store.disk tmp, computes audio outcome
      | _ => True
  | _ => True

instance (computes : List UInt8 → ModelOutcome → Prop)
    [∀ audio outcome, Decidable (computes audio outcome)] (s : CloneState) (e : CloneEvent) :
    Decidable (computesFromFile scfg computes s e) := by
  unfold computesFromFile
  split
  · split <;> infer_instance
  · infer_instance

end XttsServer.Model
