import Mathlib.Data.List.Sort
import XttsServer.Foundations.FileTree
import XttsServer.Model.Paths

/-!
The speaker store: the directory of each speaker, the records in memory, and the
operations on both as sequences of file operations, each of which may raise.
-/

set_option autoImplicit false
set_option relaxedAutoImplicit false

namespace XttsServer.Model

open XttsServer.Foundations

/-! ### The directory -/

/-- What a file holds; a JSON object is one of strings. -/
inductive FileContent
  | audio (bytes : List UInt8)
  | npz (gptCondLatent speakerEmbedding : Ndarray)
  | json (fields : Dict String String)
  /-- What an interrupted writer leaves. -/
  | truncated
  deriving DecidableEq

abbrev Disk := FileTree Component FileContent

def refWav : Component := ⟨"ref.wav", by decide⟩

def latentsNpz : Component := ⟨"latents.npz", by decide⟩

def metaJson : Component := ⟨"meta.json", by decide⟩

/-- SPEAKERS_DIR, with the directory that the path leads to, which stays where it is. -/
structure SpeakersDir where
  path : Path
  root : List Component

/-- Where `os.path.join(self._dir, name)` leads. -/
def SpeakersDir.resolve (d : SpeakersDir) (disk : Disk) (name : String) : Option (List Component) :=
  disk.walk (if isAbsolute name then [] else d.root) (hops name)

/-- The content of a file in that directory, when `os.path.isfile` finds it. -/
def SpeakersDir.file? (d : SpeakersDir) (disk : Disk) (name : String) (file : Component) :
    Option FileContent :=
  (d.resolve disk name).bind fun p => disk.read (p ++ [file])

/-! ### Reading -/

structure SpeakerRecord where
  name : String
  wavPath : Path
  gptCondLatent : Ndarray
  speakerEmbedding : Ndarray
  createdAt : String := ""
  deriving DecidableEq

/-- What the store's methods raise: their own error, what `np.load` and `json.load` raise on a
file they cannot read, or an `OSError`. -/
inductive SpeakerError
  | notFound (name : String)
  | badNpz
  | badJson
  | os
  deriving DecidableEq

def SpeakersDir.wavPath (d : SpeakersDir) (name : String) : Path :=
  osPathJoin (osPathJoin d.path name) "ref.wav"

/-- What `_load_from_disk` makes of the three files, each as `os.path.isfile` finds it. -/
def loadFiles (name : String) (wavPath : Path) (latents ref metadata : Option FileContent) :
    Except SpeakerError (Option SpeakerRecord) :=
  match latents with
  | none => .ok none
  | some (.npz gpt emb) =>
      let wavPath := if ref.isSome then wavPath else ""
      match metadata with
      | none => .ok (some ⟨name, wavPath, gpt, emb, ""⟩)
      | some (.json fields) =>
          .ok (some ⟨name, wavPath, gpt, emb, (fields.get? "created_at").getD ""⟩)
      | some _ => .error .badJson
  | some _ => .error .badNpz

def SpeakersDir.loadFromDisk (d : SpeakersDir) (disk : Disk) (name : String) :
    Except SpeakerError (Option SpeakerRecord) :=
  loadFiles name (d.wavPath name) (d.file? disk name latentsNpz) (d.file? disk name refWav)
    (d.file? disk name metaJson)

/-- A `SpeakerStore`: the disk it works on and its `_cache`. -/
structure SpeakerStore where
  disk : Disk
  cache : Dict String SpeakerRecord

def SpeakerStore.get (d : SpeakersDir) (s : SpeakerStore) (name : String) :
    SpeakerStore × Except SpeakerError SpeakerRecord :=
  match s.cache.get? name with
  | some record => (s, .ok record)
  | none =>
      match d.loadFromDisk s.disk name with
      | .error e => (s, .error e)
      | .ok none => (s, .error (.notFound name))
      | .ok (some record) => ({ s with cache := s.cache.set name record }, .ok record)

def SpeakerStore.exists (d : SpeakersDir) (s : SpeakerStore) (name : String) : Bool :=
  (s.cache.get? name).isSome || (d.file? s.disk name latentsNpz).isSome

/-- The loop of `list_speakers` over the sorted entries. -/
def listEntries (d : SpeakersDir) (disk : Disk) :
    List Component → Except SpeakerError (List (Dict String String))
  | [] => .ok []
  | entry :: rest =>
      if ¬ disk.isDir (d.root ++ [entry]) then listEntries d disk rest
      else
        match disk.read (d.root ++ [entry, metaJson]) with
        | none => listEntries d disk rest
        | some (.json fields) => (listEntries d disk rest).map (fields :: ·)
        | some _ => .error .badJson

def listSpeakers (d : SpeakersDir) (disk : Disk) :
    Except SpeakerError (List (Dict String String)) :=
  if ¬ disk.isDir d.root then .ok []
  else listEntries d disk ((disk.children d.root).insertionSort fun a b => a.name ≤ b.name)

/-- The loop of `preload_all` over the entries in the order of `os.scandir`. -/
def preloadEntries (d : SpeakersDir) :
    SpeakerStore → Nat → List Component → SpeakerStore × Except SpeakerError Nat
  | s, loaded, [] => (s, .ok loaded)
  | s, loaded, entry :: rest =>
      if ¬ s.disk.isDir (d.root ++ [entry]) ∨ (s.cache.get? entry.name).isSome then
        preloadEntries d s loaded rest
      else
        match d.loadFromDisk s.disk entry.name with
        | .error e => (s, .error e)
        | .ok none => preloadEntries d s loaded rest
        | .ok (some record) =>
            preloadEntries d { s with cache := s.cache.set entry.name record } (loaded + 1) rest

/-- `preload_all`. The entries are those of SPEAKERS_DIR in the order of `os.scandir`, which may be
any. -/
def SpeakerStore.preloadAll (d : SpeakersDir) (s : SpeakerStore) (entries : List Component) :
    SpeakerStore × Except SpeakerError Nat :=
  if ¬ s.disk.isDir d.root then (s, .ok 0) else preloadEntries d s 0 entries

/-! ### Writing -/

/-- The steps of a file operation between which the process may stop. -/
inductive FileAction
  /-- `os.makedirs(exist_ok=True)` of a directory whose parent is there. -/
  | mkdir (dir : List Component) (name : Component)
  /-- The file is opened for writing, and is complete once it is closed. -/
  | create (dir : List Component) (name : Component)
  | fill (dir : List Component) (name : Component) (content : FileContent)
  /-- `shutil.copy2` has opened both files, and has copied the data. -/
  | openCopy (source : List Component) (dir : List Component) (name : Component)
  | fillCopy (source : List Component) (dir : List Component) (name : Component)

/-- `none` when the action raises. -/
def FileAction.run (disk : Disk) : FileAction → Option Disk
  | .mkdir p c => disk.mkdir p c
  | .create p c => disk.write p c .truncated
  | .fill p c content => disk.write p c content
  | .openCopy source p c =>
      if (disk.read source).isSome ∧ source ≠ p ++ [c] then disk.write p c .truncated else none
  | .fillCopy source p c => (disk.read source).bind (disk.write p c)

def runActions : Disk → List FileAction → Option Disk
  | disk, [] => some disk
  | disk, action :: rest => (action.run disk).bind (runActions · rest)

/-- The arguments of a `register` call, with the time that it will take for `created_at`. The
source is given by its directory and its name. -/
structure Registration where
  name : SpeakerName
  sourceDir : List Component
  sourceName : Component
  gptCondLatent : Ndarray
  speakerEmbedding : Ndarray
  createdAt : String

def SpeakersDir.speakerDir (d : SpeakersDir) (n : SpeakerName) : List Component :=
  d.root ++ [n.component]

def speakerMeta (r : Registration) : Dict String String :=
  (Dict.empty.set "name" r.name.name).set "created_at" r.createdAt

/-- `shutil.copy2` into the speaker's directory; a destination that is a directory receives the
file under its old name. -/
def copyActions (d : SpeakersDir) (disk : Disk) (r : Registration) : List FileAction :=
  let dir := d.speakerDir r.name
  let (dir, name) :=
    if disk.isDir (dir ++ [refWav]) then (dir ++ [refWav], r.sourceName) else (dir, refWav)
  [.openCopy (r.sourceDir ++ [r.sourceName]) dir name,
    .fillCopy (r.sourceDir ++ [r.sourceName]) dir name]

def saveActions (dir : List Component) (gpt emb : Ndarray) (fields : Dict String String) :
    List FileAction :=
  [.create dir latentsNpz, .fill dir latentsNpz (.npz gpt emb), .create dir metaJson,
    .fill dir metaJson (.json fields)]

/-- The file operations of `register`, in order. -/
def registerActions (d : SpeakersDir) (disk : Disk) (r : Registration) : List FileAction :=
  [.mkdir d.root r.name.component] ++ copyActions d disk r ++
    saveActions (d.speakerDir r.name) r.gptCondLatent r.speakerEmbedding (speakerMeta r)

def registeredRecord (d : SpeakersDir) (r : Registration) : SpeakerRecord :=
  ⟨r.name.name, d.wavPath r.name.name, r.gptCondLatent, r.speakerEmbedding, r.createdAt⟩

/-- A `register` call that returns. -/
def SpeakerStore.register (d : SpeakersDir) (s : SpeakerStore) (r : Registration) :
    Option (SpeakerStore × SpeakerRecord) :=
  (runActions s.disk (registerActions d s.disk r)).map fun disk =>
    (⟨disk, s.cache.set r.name.name (registeredRecord d r)⟩, registeredRecord d r)

/-- What `register` leaves when it raises after some of its file operations. -/
def SpeakerStore.registerRaises (d : SpeakersDir) (s : SpeakerStore) (r : Registration)
    (done : Nat) : Option SpeakerStore :=
  if done < (registerActions d s.disk r).length then
    (runActions s.disk ((registerActions d s.disk r).take done)).map fun disk => { s with disk }
  else none

/-- A part of what `shutil.rmtree` does to a directory: some files and empty directories below it
are removed, in some order. -/
def removeBelow : Disk → List Component → List (List Component × Component) → Option Disk
  | disk, _, [] => some disk
  | disk, dir, (p, c) :: rest => (disk.remove (dir ++ p) c).bind (removeBelow · dir rest)

/-- A `delete` call in which `shutil.rmtree` does not raise. -/
def SpeakerStore.delete (d : SpeakersDir) (s : SpeakerStore) (n : SpeakerName) :
    SpeakerStore × Except SpeakerError Unit :=
  if s.disk.isDir (d.speakerDir n) then
    (⟨s.disk.rmtree d.root n.component, s.cache.erase n.name⟩, .ok ())
  else (s, .error (.notFound n.name))

/-- What `delete` leaves when `shutil.rmtree` raises. -/
def SpeakerStore.deleteRaises (d : SpeakersDir) (s : SpeakerStore) (n : SpeakerName)
    (gone : List (List Component × Component)) : Option SpeakerStore :=
  if s.disk.isDir (d.speakerDir n) then
    (removeBelow s.disk (d.speakerDir n) gone).map fun disk => ⟨disk, s.cache.erase n.name⟩
  else none

end XttsServer.Model
