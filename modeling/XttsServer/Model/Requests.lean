import Mathlib.Data.Rat.Defs
import Mathlib.Data.List.Basic

/-!
The data that moves between clients, handlers and worker processes, and the
checks the three synthesis endpoints make before anything is enqueued.
-/

set_option autoImplicit false
set_option relaxedAutoImplicit false

namespace XttsServer.Model

/-- The text of a `uuid.uuid4()`, which names a job, a stream or a latent computation. -/
abbrev JobId := String

/-- The identity of a Manager queue proxy. -/
abbrev QueueId := Nat

/-- The identity of a `WorkerHandle`: its position in `Dispatcher._workers`. -/
abbrev WorkerRef := Nat

abbrev Path := String

/-- A float32 numpy array: its shape and the bit patterns of its elements. -/
structure Ndarray where
  shape : List Nat
  data : List UInt32
  deriving DecidableEq

/-! ### config.py -/

def supportedLanguages : List String :=
  ["en", "es", "fr", "de", "it", "pt", "pl", "tr", "ru", "nl", "cs", "ar", "zh-cn", "ja", "hu",
    "ko", "hi"]

/-- The settings that the modelled code reads. -/
structure Settings where
  defaultLanguage : String := "tr"
  maxQueueSize : Int := 100
  jobTtlSeconds : Int := 300
  outputsDir : String := "./outputs"
  maxTextLength : Int := 5000
  workerTimeoutSeconds : Int := 300
  workersPerGpuList : List Nat := []

/-! ### audio.py -/

inductive AudioFormat
  | wav | mp3 | ogg | flac
  deriving DecidableEq

def AudioFormat.name : AudioFormat → String
  | .wav => "wav"
  | .mp3 => "mp3"
  | .ogg => "ogg"
  | .flac => "flac"

def supportedFormats : List AudioFormat := [.wav, .mp3, .ogg, .flac]

def outputFilename (jobId : JobId) (fmt : AudioFormat) : String := jobId ++ "." ++ fmt.name

/-- `os.path.join` of two components on a POSIX system. -/
def osPathJoin (a b : Path) : Path :=
  if b.toList.head? = some '/' then b
  else if a = "" ∨ a.toList.getLast? = some '/' then a ++ b
  else a ++ "/" ++ b

/-! ### worker.py: requests and replies -/

/-- The inference parameters of a request, which every layer passes on unread. -/
structure InferenceParams where
  temperature : ℚ := 3/4
  lengthPenalty : ℚ := 1
  repetitionPenalty : ℚ := 10
  topK : Int := 50
  topP : ℚ := 17/20
  doSample : Bool := true
  numBeams : Int := 1
  speed : ℚ := 1
  enableTextSplitting : Bool := false
  deriving DecidableEq

structure SynthesisRequest where
  jobId : JobId
  text : String
  language : String
  gptCondLatent : Ndarray
  speakerEmbedding : Ndarray
  resultQueue : QueueId
  params : InferenceParams := {}
  deriving DecidableEq

structure StreamSynthesisRequest where
  jobId : JobId
  text : String
  language : String
  gptCondLatent : Ndarray
  speakerEmbedding : Ndarray
  resultQueue : QueueId
  params : InferenceParams := {}
  deriving DecidableEq

structure ComputeLatentsRequest where
  jobId : JobId
  wavPath : Path
  resultQueue : QueueId
  deriving DecidableEq

/-- What the dispatcher puts on a worker's `request_queue`. -/
inductive Request
  | synthesis (request : SynthesisRequest)
  | stream (request : StreamSynthesisRequest)
  | computeLatents (request : ComputeLatentsRequest)
  deriving DecidableEq

def Request.jobId : Request → JobId
  | .synthesis r => r.jobId
  | .stream r => r.jobId
  | .computeLatents r => r.jobId

def Request.resultQueue : Request → QueueId
  | .synthesis r => r.resultQueue
  | .stream r => r.resultQueue
  | .computeLatents r => r.resultQueue

structure SynthesisResult where
  jobId : JobId
  audio : Option Ndarray
  sampleRate : Nat := 24000
  error : Option String := none
  deriving DecidableEq

structure SynthesisChunk where
  jobId : JobId
  chunk : Ndarray
  deriving DecidableEq

structure SynthesisStreamEnd where
  jobId : JobId
  error : Option String := none
  deriving DecidableEq

structure LatentsResult where
  jobId : JobId
  gptCondLatent : Option Ndarray := none
  speakerEmbedding : Option Ndarray := none
  error : Option String := none
  deriving DecidableEq

/-- What a worker puts on the `result_queue` of a request. -/
inductive Message
  | result (result : SynthesisResult)
  | chunk (chunk : SynthesisChunk)
  | streamEnd (streamEnd : SynthesisStreamEnd)
  | latents (result : LatentsResult)
  deriving DecidableEq

/-- A chunk announces that more is to come; every other message closes its request. -/
def Message.terminal : Message → Bool
  | .chunk _ => false
  | _ => true

/-! ### Python idioms -/

/-- `value or default` for an optional string. -/
def orDefault (value : Option String) (default : String) : String :=
  match value with
  | none => default
  | some v => if v = "" then default else v

/-- `text[:n]`. -/
def pyTake (text : String) (n : Nat) : String := String.ofList (text.toList.take n)

/-- The `repr` of a list of strings without quotes in them. -/
def pyListRepr (items : List String) : String :=
  "[" ++ ", ".intercalate (items.map fun v => "'" ++ v ++ "'") ++ "]"

/-! ### Request bodies -/

/-- The `speaker` union; inline arrays are given as rounded to float32. -/
inductive Speaker
  | name (name : String)
  | embedding (gptCondLatent : List (List UInt32)) (speakerEmbedding : List UInt32)
  deriving DecidableEq

structure TtsRequest where
  text : String
  language : Option String := none
  speaker : Speaker
  format : AudioFormat := .wav
  params : InferenceParams := {}
  deriving DecidableEq

/-- `BatchItem` has the fields of `TtsRequest` and none of its validators. -/
abbrev BatchItem := TtsRequest

structure StreamRequest where
  text : String
  language : Option String := none
  speaker : Speaker
  params : InferenceParams := {}
  deriving DecidableEq

/-- What a handler raises: an `HTTPException`, an exception of `make_queue`, or any other
exception with its text. -/
inductive Exc
  | http (status : Nat) (detail : String)
  | makeQueue
  | other (text : String)
  deriving DecidableEq

/-- `getattr(exc, "detail", str(exc))`. -/
def Exc.detail : Exc → String
  | .http _ detail => detail
  | .makeQueue => ""
  | .other text => text

/-! ### `_resolve_speaker` -/

/-- The answer of `SpeakerStore.get` for a name. -/
inductive SpeakerLookup
  | found (gptCondLatent speakerEmbedding : Ndarray)
  | notFound
  | raised (text : String)
  deriving DecidableEq

/-- What the speaker store answers at the moment a handler reads it. -/
abbrev SpeakerView := String → SpeakerLookup

/-- `np.array(rows, dtype=np.float32)[np.newaxis]`, which raises on rows of unequal length. -/
def gptArray (rows : List (List UInt32)) : Except Exc Ndarray :=
  match rows with
  | [] => .ok ⟨[1, 0], []⟩
  | row :: rest =>
      if rest.all fun r => r.length = row.length then
        .ok ⟨[1, rows.length, row.length], rows.flatten⟩
      else .error (.other "setting an array element with a sequence.")

def resolveSpeaker (speakers : SpeakerView) : Speaker → Except Exc (Ndarray × Ndarray × String)
  | .embedding rows emb => do
      let gpt ← gptArray rows
      return (gpt, ⟨[1, emb.length, 1], emb⟩, "inline")
  | .name name =>
      match speakers name with
      | .found gpt emb => .ok (gpt, emb, name)
      | .notFound => .error (.http 404 s!"Speaker '{name}' not found.")
      | .raised text => .error (.other text)

/-! ### The checks of the three endpoints -/

/-- A validated item, with what the handler looked up for it. -/
structure Resolved where
  text : String
  language : String
  gptCondLatent : Ndarray
  speakerEmbedding : Ndarray
  speakerId : String
  format : AudioFormat
  params : InferenceParams
  deriving DecidableEq

def checkLanguage (language : Option String) : Except Exc Unit :=
  match language with
  | none => .ok ()
  | some v =>
      if v ∈ supportedLanguages then .ok ()
      else .error (.http 422
        s!"Unsupported language '{v}'. Supported: {pyListRepr supportedLanguages}")

theorem throw_bind {α β : Type} (e : Exc) (rest : α → Except Exc β) :
    (throw e >>= rest) = .error e := rfl

theorem error_bind {α β : Type} (e : Exc) (rest : α → Except Exc β) :
    (.error e >>= rest) = .error e := rfl

theorem ok_bind {α β : Type} (a : α) (rest : α → Except Exc β) : (.ok a >>= rest) = rest a := rfl

/-- The validators of `TtsRequest` and the checks of `submit_tts` and `_run_synthesis`. -/
def resolveTts (settings : Settings) (speakers : SpeakerView) (body : TtsRequest) :
    Except Exc Resolved := do
  checkLanguage body.language
  if (body.text.length : Int) > settings.maxTextLength then
    throw (.http 422
      s!"Text length {body.text.length} exceeds MAX_TEXT_LENGTH ({settings.maxTextLength}).")
  let (gpt, emb, speakerId) ← resolveSpeaker speakers body.speaker
  return ⟨body.text, orDefault body.language settings.defaultLanguage, gpt, emb, speakerId,
    body.format, body.params⟩

/-- The checks `submit_batch` makes on the item at position `idx`. -/
def resolveBatchItem (settings : Settings) (speakers : SpeakerView) (idx : Nat) (item : BatchItem) :
    Except Exc Resolved := do
  if (item.text.length : Int) > settings.maxTextLength then
    throw (.http 422 (s!"Item {idx}: text length {item.text.length} exceeds " ++
      s!"MAX_TEXT_LENGTH ({settings.maxTextLength})."))
  let language := orDefault item.language settings.defaultLanguage
  if language ∉ supportedLanguages then
    throw (.http 422 s!"Item {idx}: unsupported language '{language}'.")
  if item.format ∉ supportedFormats then
    throw (.http 422 s!"Item {idx}: unsupported format '{item.format.name}'.")
  match resolveSpeaker speakers item.speaker with
  | .ok (gpt, emb, speakerId) =>
      return ⟨item.text, language, gpt, emb, speakerId, item.format, item.params⟩
  | .error (.http status detail) => throw (.http status s!"Item {idx}: {detail}")
  | .error e => throw e

/-- The validation loop of `submit_batch`, which stops at the first bad item. -/
def resolveItems (settings : Settings) (speakers : SpeakerView) :
    Nat → List BatchItem → Except Exc (List Resolved)
  | _, [] => .ok []
  | idx, item :: items => do
      let r ← resolveBatchItem settings speakers idx item
      let rs ← resolveItems settings speakers (idx + 1) items
      return r :: rs

def maxBatchSize : Nat := 50

/-- `BatchRequest` bounds the number of items before `submit_batch` looks at any of them. -/
def resolveBatch (settings : Settings) (speakers : SpeakerView) (items : List BatchItem) :
    Except Exc (List Resolved) :=
  if items.length < 1 then .error (.http 422 "List should have at least 1 item after validation")
  else if items.length > maxBatchSize then
    .error (.http 422 s!"List should have at most {maxBatchSize} items after validation")
  else resolveItems settings speakers 0 items

/-- The checks of `stream_tts` up to the request it builds. -/
def resolveStream (settings : Settings) (speakers : SpeakerView) (params : StreamRequest) :
    Except Exc (String × Ndarray × Ndarray) := do
  if (params.text.length : Int) > settings.maxTextLength then
    throw (.other
      s!"Text length {params.text.length} exceeds MAX_TEXT_LENGTH ({settings.maxTextLength}).")
  let language := orDefault params.language settings.defaultLanguage
  if language ∉ supportedLanguages then
    throw (.other s!"Unsupported language: '{language}'")
  let (gpt, emb, _) ← resolveSpeaker speakers params.speaker
  return (language, gpt, emb)

theorem resolveItems_cons {settings : Settings} {speakers : SpeakerView} {item : BatchItem}
    {items : List BatchItem} {idx : Nat} {rs : List Resolved}
    (h : resolveItems settings speakers idx (item :: items) = .ok rs) :
    ∃ r tail, rs = r :: tail ∧ resolveBatchItem settings speakers idx item = .ok r ∧
      resolveItems settings speakers (idx + 1) items = .ok tail := by
  cases first : resolveBatchItem settings speakers idx item with
  | error e => simp [resolveItems, first, error_bind] at h
  | ok r =>
    cases rest : resolveItems settings speakers (idx + 1) items with
    | error e => simp [resolveItems, first, rest, ok_bind] at h
    | ok tail =>
      have built : r :: tail = rs := by
        simpa [resolveItems, first, rest, ok_bind, pure, Except.pure] using h
      exact ⟨r, tail, built.symm, rfl, rfl⟩

private theorem length_resolveItems (settings : Settings) (speakers : SpeakerView)
    (items : List BatchItem) (idx : Nat) (rs : List Resolved)
    (h : resolveItems settings speakers idx items = .ok rs) :
    rs.length = items.length := by
  induction items generalizing idx rs with
  | nil =>
    cases h
    rfl
  | cons item items ih =>
    obtain ⟨r, tail, rfl, -, rest⟩ := resolveItems_cons h
    rw [List.length_cons, List.length_cons, ih _ _ rest]

private theorem getElem?_resolveItems {settings : Settings} {speakers : SpeakerView}
    {items : List BatchItem} {idx : Nat} {rs : List Resolved}
    (h : resolveItems settings speakers idx items = .ok rs) {i : Nat} {item : BatchItem}
    (here : items[i]? = some item) :
    ∃ r, rs[i]? = some r ∧ resolveBatchItem settings speakers (idx + i) item = .ok r := by
  induction items generalizing idx rs i with
  | nil => cases here
  | cons first items ih =>
    obtain ⟨r, tail, rfl, head, rest⟩ := resolveItems_cons h
    cases i with
    | zero =>
      obtain rfl : first = item := Option.some.inj here
      exact ⟨r, rfl, head⟩
    | succ i =>
      obtain ⟨r', found, checked⟩ := ih rest here
      exact ⟨r', found, by rwa [Nat.add_right_comm] at checked⟩

theorem length_resolveBatch {settings : Settings} {speakers : SpeakerView} {items : List BatchItem}
    {rs : List Resolved} (h : resolveBatch settings speakers items = .ok rs) :
    rs.length = items.length := by
  unfold resolveBatch at h
  split_ifs at h
  exact length_resolveItems settings speakers items 0 rs h

theorem getElem?_resolveBatch {settings : Settings} {speakers : SpeakerView}
    {items : List BatchItem} {rs : List Resolved}
    (h : resolveBatch settings speakers items = .ok rs) {i : Nat} {item : BatchItem}
    (here : items[i]? = some item) :
    ∃ r, rs[i]? = some r ∧ resolveBatchItem settings speakers i item = .ok r := by
  unfold resolveBatch at h
  split_ifs at h
  simpa using getElem?_resolveItems h here

end XttsServer.Model
