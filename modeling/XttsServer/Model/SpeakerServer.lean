import Mathlib.Logic.Function.Basic
import XttsServer.Foundations.Transition
import XttsServer.Model.Speakers

/-!
The endpoints over the speaker store. A step is what a handler does between two
awaits, so a clone request takes three, and requests may come between them.
-/

set_option autoImplicit false
set_option relaxedAutoImplicit false

namespace XttsServer.Model

open XttsServer.Foundations XttsServer.Foundations.Transition

/-- The directory, and the texts of the exceptions that numpy, json and the system raise. -/
structure SpeakerConfig where
  dir : SpeakersDir
  errorText : SpeakerError → String

/-- A clone request that waits for the upload, or for the latents of the audio it wrote. -/
inductive CloneTask
  | uploading (name : SpeakerName)
  | computing (name : SpeakerName) (tmp : Component)

structure SpeakerState where
  store : SpeakerStore
  /-- Bookkeeping that the code does not have: the directory that the cached record of a name was
  loaded from or registered under. -/
  origin : String → List Component
  clones : List CloneTask

inductive SpeakerAnswer
  | latents (gptCondLatent speakerEmbedding : Ndarray) (label : String)
  | info (name createdAt : String)
  | infos (speakers : List (String × String))
  | created (name createdAt message : String)
  | deleted (message : String)
  deriving DecidableEq

inductive SpeakerObs
  | started (loaded : Nat)
  /-- The path that the store built for a name with `os.path.join(self._dir, name)`. -/
  | built (path : Path)
  /-- A `get` that returned a record, and the directory the record is from. -/
  | got (name : String) (record : SpeakerRecord) (origin : List Component)
  /-- A registration has begun to write the directory. -/
  | writing (dir : List Component)
  | deleted (dir : List Component)
  | answered (answer : Except Exc SpeakerAnswer)
  deriving DecidableEq

abbrev SpeakerEffect := SpeakerState × List SpeakerObs

def SpeakerState.fail (s : SpeakerState) (e : Exc) : SpeakerEffect := (s, [.answered (.error e)])

def checkedName (name : String) : Except Exc SpeakerName :=
  match valid : validateSpeakerName name with
  | .ok () => .ok ⟨name, valid⟩
  | .error e => .error e

variable (cfg : SpeakerConfig)

/-- The record for the name and what `store.get` does to the state. -/
def SpeakerState.get (s : SpeakerState) (name : String) :
    SpeakerEffect × Except SpeakerError SpeakerRecord :=
  let (store, result) := s.store.get cfg.dir name
  if (s.store.cache.get? name).isSome then
    match result with
    | .ok record => (({ s with store }, [.got name record (s.origin name)]), .ok record)
    | .error e => (({ s with store }, []), .error e)
  else
    let path := osPathJoin cfg.dir.path name
    let dir := (cfg.dir.resolve s.store.disk name).getD []
    match result with
    | .ok record =>
        (({ s with store, origin := Function.update s.origin name dir },
          [.built path, .got name record dir]), .ok record)
    | .error e => (({ s with store }, [.built path]), .error e)

/-- How the handlers of synthesis requests see the store. -/
def SpeakerStore.view (s : SpeakerStore) : SpeakerView := fun name =>
  match (s.get cfg.dir name).2 with
  | .ok record => .found record.gptCondLatent record.speakerEmbedding
  | .error (.notFound _) => .notFound
  | .error e => .raised (cfg.errorText e)

def SpeakerState.resolve (s : SpeakerState) (speaker : Speaker) : SpeakerEffect :=
  let answer := (resolveSpeaker (s.store.view cfg) speaker).map fun (gpt, emb, label) =>
    SpeakerAnswer.latents gpt emb label
  match speaker with
  | .embedding _ _ => (s, [.answered answer])
  | .name name =>
      let ((s', o), _) := s.get cfg name
      (s', o ++ [.answered answer])

/-- What an exception of the store becomes in the handlers for one speaker. -/
def speakerExc (name : String) : SpeakerError → Exc
  | .notFound _ => .http 404 s!"Speaker '{name}' not found."
  | e => .other (cfg.errorText e)

def SpeakerState.getSpeaker (s : SpeakerState) (name : String) : SpeakerEffect :=
  match checkedName name with
  | .error e => s.fail e
  | .ok n =>
      let ((s', o), result) := s.get cfg n.name
      match result with
      | .ok record => (s', o ++ [.answered (.ok (.info record.name record.createdAt))])
      | .error e => (s', o ++ [.answered (.error (speakerExc cfg name e))])

/-- `DELETE /v1/speakers/{name}`; `gone` is what `shutil.rmtree` removed before it raised. -/
def SpeakerState.deleteSpeaker (s : SpeakerState) (name : String)
    (gone : Option (List (List Component × Component))) : Option SpeakerEffect :=
  match checkedName name with
  | .error e => some (s.fail e)
  | .ok n =>
      let path := osPathJoin cfg.dir.path n.name
      match gone with
      | none =>
          let (store, result) := s.store.delete cfg.dir n
          match result with
          | .ok () =>
              some ({ s with store }, [.built path, .deleted (cfg.dir.speakerDir n),
                .answered (.ok (.deleted s!"Speaker '{name}' deleted."))])
          | .error e =>
            some ({ s with store }, [.built path, .answered (.error (speakerExc cfg name e))])
      | some gone =>
          (s.store.deleteRaises cfg.dir n gone).map fun store =>
            ({ s with store }, [.built path, .answered (.error (.other (cfg.errorText .os)))])

/-- `SpeakerInfo(name=s["name"], created_at=s.get("created_at", ""))` for each entry. -/
def speakerInfos : List (Dict String String) → Except Exc (List (String × String))
  | [] => .ok []
  | fields :: rest =>
      match fields.get? "name" with
      | none => .error (.other "'name'")
      | some name =>
          (speakerInfos rest).map ((name, (fields.get? "created_at").getD "") :: ·)

def SpeakerState.listSpeakers (s : SpeakerState) : SpeakerEffect :=
  match Model.listSpeakers cfg.dir s.store.disk with
  | .error e => s.fail (.other (cfg.errorText e))
  | .ok entries => (s, [.answered ((speakerInfos entries).map .infos)])

/-! ### POST /v1/clone -/

def maxAudioBytes : Nat := 10 * 1024 * 1024

/-- `n / 1024` under the format `.0f`, which rounds a half to even. -/
def kilobytes (n : Nat) : Nat :=
  if n % 1024 < 512 ∨ n % 1024 = 512 ∧ n / 1024 % 2 = 0 then n / 1024 else n / 1024 + 1

def alreadyExists (name : String) : Exc :=
  let hint := "{name}"
  .http 409 s!"Speaker '{name}' already exists. Delete it first with DELETE /v1/speakers/{hint}."

/-- `store.exists`, with the path that it builds. -/
def SpeakerState.exists (s : SpeakerState) (n : SpeakerName) : List SpeakerObs × Bool :=
  let path := osPathJoin cfg.dir.path n.name
  (if (s.store.cache.get? n.name).isSome then [] else [.built path], s.store.exists cfg.dir n.name)

/-- Up to `await audio.read()`. -/
def SpeakerState.cloneSpeaker (s : SpeakerState) (name : String) : SpeakerEffect :=
  match checkedName name with
  | .error e => s.fail e
  | .ok n =>
      let (o, taken) := s.exists cfg n
      if taken then (s, o ++ [.answered (.error (alreadyExists name))])
      else ({ s with clones := s.clones ++ [.uploading n] }, o)

def tmpDir : Component := ⟨".tmp", by decide⟩

/-- Up to `await compute_latents(..)`. Writing the file may fail half-way. -/
def SpeakerState.cloneUpload (s : SpeakerState) (i : Nat) (audio : List UInt8) (tmp : Component)
    (fails : Bool) : Option SpeakerEffect :=
  match s.clones[i]? with
  | some (.uploading n) =>
      let ended : SpeakerState := { s with clones := s.clones.eraseIdx i }
      if audio = [] then some (ended.fail (.http 422 "Uploaded audio file is empty."))
      else if maxAudioBytes < audio.length then
        some (ended.fail (.http 413 (s!"Audio file too large ({kilobytes audio.length} KB). " ++
          s!"Maximum is {maxAudioBytes / 1024} KB.")))
      else
        let dir := cfg.dir.root ++ [tmpDir]
        -- the name is a fresh uuid
        if s.store.disk.node (dir ++ [tmp]) ≠ none then none
        else
          match s.store.disk.mkdir cfg.dir.root tmpDir with
          | none => some (ended.fail (.other (cfg.errorText .os)))
          | some disk =>
              if fails then
                (disk.write dir tmp .truncated).map fun disk =>
                  SpeakerState.fail { ended with store := { s.store with disk } }
                    (.other (cfg.errorText .os))
              else
                (disk.write dir tmp (.audio audio)).map fun disk =>
                  ({ s with
                      store := { s.store with disk }
                      clones := s.clones.set i (.computing n tmp) }, [])
  | _ => none

def cloneRegistration (n : SpeakerName) (tmp : Component)
    (gpt emb : Ndarray) (createdAt : String) : Registration :=
  ⟨n, cfg.dir.root ++ [tmpDir], tmp, gpt, emb, createdAt⟩

/-- `os.remove(tmp_path)` when it is a file. -/
def SpeakerStore.removeTmp (s : SpeakerStore) (tmp : Component) : SpeakerStore :=
  let dir := cfg.dir.root ++ [tmpDir]
  if s.disk.isFile (dir ++ [tmp]) then
    { s with disk := (s.disk.remove dir tmp).getD s.disk }
  else s

/-- The handler goes on with the result. `stops` is how many file operations of `register` are done
when one of them raises, if one does. -/
def SpeakerState.cloneLatents (s : SpeakerState) (i : Nat) (result : LatentsResult)
    (createdAt : String) (stops : Option Nat) : Option SpeakerEffect :=
  match s.clones[i]? with
  | some (.computing n tmp) =>
      let ended : SpeakerState := { s with clones := s.clones.eraseIdx i }
      match result.error.filter (· ≠ ""), result.gptCondLatent, result.speakerEmbedding with
      | none, some gpt, some emb =>
          let (o, taken) := s.exists cfg n
          if taken then some (ended, o ++ [.answered (.error (alreadyExists n.name))])
          else
            let path := osPathJoin cfg.dir.path n.name
            let r := cloneRegistration cfg n tmp gpt emb createdAt
            match stops with
            | none =>
                (s.store.register cfg.dir r).map fun (store, record) =>
                  ({ ended with
                      store := store.removeTmp cfg tmp
                      origin := Function.update s.origin n.name (cfg.dir.speakerDir n) },
                    o ++ [.built path, .writing (cfg.dir.speakerDir n),
                      .answered (.ok (.created record.name record.createdAt
                        s!"Speaker '{n.name}' registered. Use it with POST /v1/tts."))])
            | some done =>
                (s.store.registerRaises cfg.dir r done).map fun store =>
                  ({ ended with store }, o ++ [.built path, .writing (cfg.dir.speakerDir n),
                    .answered (.error (.other (cfg.errorText .os)))])
      | some error, _, _ =>
          some (ended.fail (.http 500
            s!"Failed to compute speaker latents: {pyTake error 300}"))
      | _, _, _ => some (ended.fail (.other "'NoneType' object has no attribute 'shape'"))
  | _ => none

/-! ### The machine -/

/-- The handler is left by an exception of `compute_latents`. -/
def SpeakerState.cloneRaises (s : SpeakerState) (i : Nat) (e : Exc) : Option SpeakerEffect :=
  match s.clones[i]? with
  | some (.computing _ _) =>
      some (SpeakerState.fail { s with clones := s.clones.eraseIdx i } e)
  | _ => none

/-- A new process: a store with an empty cache, and `preload_all`. One that raises is no step, as
it leaves no server and the disk as it is. -/
def SpeakerState.startup (s : SpeakerState) (entries : List Component) : Option SpeakerEffect :=
  if entries.Perm (s.store.disk.children cfg.dir.root) then
    match (SpeakerStore.mk s.store.disk .empty).preloadAll cfg.dir entries with
    | (store, .ok loaded) =>
        some (⟨store, fun name => (cfg.dir.resolve s.store.disk name).getD [], []⟩,
          [.started loaded])
    | (_, .error _) => none
  else none

inductive SpeakerEvent
  | startup (entries : List Component)
  /-- One call of `_resolve_speaker`: of `POST /v1/tts`, of `_run_synthesis` for the two speech
  endpoints, for one item of `POST /v1/batch`, or of the stream. -/
  | resolve (speaker : Speaker)
  | getSpeaker (name : String)
  | deleteSpeaker (name : String) (gone : Option (List (List Component × Component)))
  | listSpeakers
  | cloneSpeaker (name : String)
  | cloneUpload (i : Nat) (audio : List UInt8) (tmp : Component) (fails : Bool)
  | cloneLatents (i : Nat) (result : LatentsResult) (createdAt : String) (stops : Option Nat)
  | cloneRaises (i : Nat) (e : Exc)

def speakerStep (s : SpeakerState) : SpeakerEvent → Option SpeakerEffect
  | .startup entries => s.startup cfg entries
  | .resolve speaker => some (s.resolve cfg speaker)
  | .getSpeaker name => some (s.getSpeaker cfg name)
  | .deleteSpeaker name gone => s.deleteSpeaker cfg name gone
  | .listSpeakers => some (s.listSpeakers cfg)
  | .cloneSpeaker name => some (s.cloneSpeaker cfg name)
  | .cloneUpload i audio tmp fails => s.cloneUpload cfg i audio tmp fails
  | .cloneLatents i result createdAt stops => s.cloneLatents cfg i result createdAt stops
  | .cloneRaises i e => s.cloneRaises i e

/-- The server over a disk, from where its store has been made. -/
def speakerServer (disk : Disk) : Machine SpeakerState SpeakerEvent SpeakerObs where
  init := ⟨⟨disk, .empty⟩, fun _ => [], []⟩
  step := speakerStep cfg

end XttsServer.Model
