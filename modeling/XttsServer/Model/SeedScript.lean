import XttsServer.Model.Seeding

/-!
The seeding script as a whole: from the speakers file to the directories that it writes
and the lines that it prints, for real and as a dry run, with writes that may fail.
-/

set_option autoImplicit false
set_option relaxedAutoImplicit false

namespace XttsServer.Model

open XttsServer.Foundations XttsServer.Foundations.Transition

/-! ### Names and tensors -/

/-- `.encode("ascii", errors="ignore")`. -/
def encodeAscii (text : String) :
    String := String.ofList (text.toList.filter fun c => c.toNat < 128)

/-- `_slugify`, with `unicodedata.normalize("NFKD", ·)` as a parameter. -/
def slugOf (nfkd : String → String) (displayName : String) : String :=
  slugify (encodeAscii (nfkd displayName))

/-- `_to_numpy_latent`, of an array of float32. -/
def toNumpyLatent (arr : Ndarray) : Ndarray :=
  if arr.shape.length = 2 then { arr with shape := 1 :: arr.shape } else arr

def toNumpyEmbedding (arr : Ndarray) : Ndarray := { arr with shape := [1, arr.data.length, 1] }

/-- What the file has of a speaker: two arrays, or what reading one of them raises. -/
structure StudioTensors where
  gptCondLatent : Except String Ndarray
  speakerEmbedding : Except String Ndarray

def StudioTensors.convert (t : StudioTensors) : Except String (Ndarray × Ndarray) :=
  match t.gptCondLatent with
  | .error e => .error e
  | .ok gpt =>
      match t.speakerEmbedding with
      | .error e => .error e
      | .ok emb => .ok (toNumpyLatent gpt, toNumpyEmbedding emb)

/-! ### Writing -/

/-- `os.makedirs` makes what is missing of the path. -/
def makeParents (above : List Component) : List Component → List FileAction
  | [] => []
  | c :: rest => .mkdir above c :: makeParents (above ++ [c]) rest

/-- Run the operations until one of them raises: by itself, or when so many are done. -/
def attempt : Disk → List FileAction → Option Nat → Disk × Bool
  | disk, [], _ => (disk, true)
  | disk, _ :: _, some 0 => (disk, false)
  | disk, action :: rest, stops =>
      match action.run disk with
      | none => (disk, false)
      | some disk' => attempt disk' rest (stops.map (· - 1))

/-- The file operations for one speaker, in order. -/
def seedWrites (d : SpeakersDir) (n : SpeakerName) (sp : StudioSpeaker) : List FileAction :=
  makeParents [] d.root ++ seedActions d n sp

/-! ### The loop -/

structure SeedConfig extends SpeakerConfig where
  nfkd : String → String

structure SeedArgs where
  force : Bool
  dryRun : Bool

/-- A speaker of the file, and what its round of the loop meets: the time for `created_at` and, when
a write fails, after how many file operations. -/
structure SeedEntry where
  displayName : String
  tensors : StudioTensors
  createdAt : String
  stops : Option Nat

inductive SeedLine
  | noSlug (displayName : String)
  | alreadyExists (slug : String)
  | conversionFailed (slug error : String)
  | announced (label slug : String) (gptShape embShape : List Nat) (displayName : String)
  | writeFailed (slug error : String)
  deriving DecidableEq

structure SeedState where
  disk : Disk
  registered : Nat := 0
  skipped : Nat := 0
  errors : Nat := 0
  lines : List SeedLine := []

variable (cfg : SeedConfig)

/-- The slug of a display name, unless it is empty. -/
@[irreducible] def SeedConfig.slug? (displayName : String) : Option SpeakerName :=
  if some_char : slugOf cfg.nfkd displayName ≠ "" then
    some ⟨slugOf cfg.nfkd displayName, validate_slugify some_char⟩
  else none

def SeedConfig.studio (e : SeedEntry) (gpt emb : Ndarray) : StudioSpeaker :=
  ⟨e.displayName, encodeAscii (cfg.nfkd e.displayName), gpt, emb, e.createdAt⟩

def SeedState.seedOne (args : SeedArgs) (s : SeedState) (e : SeedEntry) : SeedState :=
  match cfg.slug? e.displayName with
  | none => { s with skipped := s.skipped + 1, lines := s.lines ++ [.noSlug e.displayName] }
  | some n =>
      if (cfg.dir.file? s.disk n.name latentsNpz).isSome ∧ ¬ args.force then
        { s with skipped := s.skipped + 1, lines := s.lines ++ [.alreadyExists n.name] }
      else
        match e.tensors.convert with
        | .error error =>
            { s with
              errors := s.errors + 1
              lines := s.lines ++ [.conversionFailed n.name error] }
        | .ok (gpt, emb) =>
            let label := if args.dryRun then "dry-run" else "register"
            let lines := s.lines ++ [.announced label n.name gpt.shape emb.shape e.displayName]
            if args.dryRun then { s with registered := s.registered + 1, lines }
            else
              match attempt s.disk (seedWrites cfg.dir n (cfg.studio e gpt emb)) e.stops with
              | (disk, true) => { s with disk, registered := s.registered + 1, lines }
              | (disk, false) =>
                  { s with
                    disk
                    errors := s.errors + 1
                    lines := lines ++ [.writeFailed n.name (cfg.errorText .os)] }

/-- What the rounds of a run meet, by the display names. -/
structure SeedEnv where
  createdAt : String → String
  stops : String → Option Nat

def SeedEnv.entry (env : SeedEnv) (speaker : String × StudioTensors) : SeedEntry :=
  ⟨speaker.1, speaker.2, env.createdAt speaker.1, env.stops speaker.1⟩

/-- `main`, from what `torch.load` makes of the speakers file. -/
def seedMain (args : SeedArgs) (env : SeedEnv) (speakers : Dict String StudioTensors)
    (disk : Disk) : SeedState :=
  (speakers.entries.map env.entry).foldl (SeedState.seedOne cfg args) { disk }

/-- `sys.exit(1)` after any error. -/
def SeedState.exitCode (s : SeedState) : Nat := if s.errors = 0 then 0 else 1

/-! ### Runs one after the other -/

/-- SPEAKERS_DIR under the rounds of the loops of any number of runs. -/
def seedings (disk : Disk) : Machine Disk (SeedArgs × SeedEntry) Unit where
  init := disk
  step disk e := some ((SeedState.seedOne cfg e.1 { disk } e.2).disk, [])

end XttsServer.Model
