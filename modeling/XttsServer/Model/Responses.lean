import Mathlib.Data.List.DropRight
import XttsServer.Foundations.Base64
import XttsServer.Model.Pool

/-!
The responses that carry audio: the file of `get_audio` with its headers, the raw bytes
of `synthesise_speech_file`, and the JSON object of `synthesise_speech`.
-/

set_option autoImplicit false
set_option relaxedAutoImplicit false

namespace XttsServer.Model

open XttsServer.Foundations

/-! ### os.path -/

def basename (p : Path) : String := String.ofList (p.toList.rtakeWhile (· ≠ '/'))

/-- `os.path.splitext` on a POSIX system: the extension begins at the last dot of the last
component, unless nothing but dots is before it there. -/
def splitext (p : Path) : Path × String :=
  let name := (basename p).toList
  let ext := name.rtakeWhile (· ≠ '.')
  let stem := name.take (name.length - ext.length - 1)
  if '.' ∈ name ∧ stem.any (· ≠ '.') then
    (String.ofList (p.toList.take (p.toList.length - ext.length - 1)), String.ofList ('.' :: ext))
  else (p, "")

/-! ### audio.py -/

def mimeTypes : List (String × String) :=
  [("wav", "audio/wav"), ("mp3", "audio/mpeg"), ("ogg", "audio/ogg"), ("flac", "audio/flac")]

/-- `mime_type`, which raises `KeyError` for any other format. -/
def mimeType (fmt : String) : Option String := mimeTypes.lookup fmt

/-! ### GET /v1/tts/{job_id}/audio -/

/-- The headers of the `FileResponse`. -/
structure FileHeaders where
  mediaType : String
  filename : String
  deriving DecidableEq

/-- The format is read off the path. -/
def fileHeaders (audioPath : Path) : Option FileHeaders := do
  let ext := String.ofList ((splitext audioPath).2.toList.dropWhile (· = '.'))
  let mediaType ←
    if ext ∈ supportedFormats.map AudioFormat.name then mimeType ext
    else some "application/octet-stream"
  return { mediaType, filename := basename audioPath }

/-! ### POST /audio/speech and POST /audio/speech-file -/

structure BytesResponse where
  content : List UInt8
  mediaType : String
  deriving DecidableEq

structure TtsResponse where
  audioB64 : List Char
  elapsedTime : ℚ
  language : String
  params : InferenceParams
  deriving DecidableEq

/-- The response of `synthesise_speech_file`; `bytes` is what the encoder of the format makes. -/
def synthesiseSpeechFile (bytes : AudioBytes → List UInt8) (answer : SpeechAnswer) :
    BytesResponse :=
  { content := bytes answer.audioData, mediaType := "audio/wav" }

def synthesiseSpeech (bytes : AudioBytes → List UInt8) (body : TtsRequest) (answer : SpeechAnswer) :
    TtsResponse :=
  { audioB64 := Base64.encode (bytes answer.audioData)
    elapsedTime := answer.synthesisMs / 1000
    language := answer.language
    params := body.params }

end XttsServer.Model
