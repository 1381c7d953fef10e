import XttsServer.Foundations.Transition
import XttsServer.Model.SpeakerServer

/-!
The seeding script, and the speakers directory by itself: what the writers of it may
leave when they are stopped between any two of their file operations.
-/

set_option autoImplicit false
set_option relaxedAutoImplicit false

namespace XttsServer.Model

open XttsServer.Foundations XttsServer.Foundations.Transition

/-! ### seed_studio_speakers.py -/

/-- `_slugify`, from what the normalisation and the ASCII encoding leave of the name. -/
def slugify (ascii : String) : String :=
  String.ofList ((ascii.toList.filterMap fun c =>
    if c.isAlphanum ∨ c = '-' ∨ c = '_' then some c else if c =
      ' ' then some '_' else none).take 64)

theorem isNameChar_of_slugify {ascii : String} {c : Char} (member : c ∈ (slugify ascii).toList) :
    isNameChar c = true := by
  rw [slugify, String.toList_ofList] at member
  obtain ⟨c', -, kept⟩ := List.mem_filterMap.mp (List.mem_of_mem_take member)
  split_ifs at kept with word space
  · obtain rfl := Option.some.inj kept
    simp only [isNameChar, Bool.or_eq_true, decide_eq_true_eq]
    tauto
  · obtain rfl := Option.some.inj kept
    decide

theorem validate_slugify {ascii : String} (some_char : slugify ascii ≠ "") :
    validateSpeakerName (slugify ascii) = .ok () := by
  have length : (slugify ascii).length ≤ 64 := by
    rw [slugify, String.length_ofList]
    exact List.length_take_le _ _
  have no_newline : (slugify ascii).toList.getLast? ≠ some '\n' := by
    intro newline
    have bad := isNameChar_of_slugify (List.mem_of_getLast? newline)
    revert bad
    decide
  have matched : matchesName (slugify ascii) = true := by
    simp only [matchesName, if_neg no_newline, Bool.and_eq_true, decide_eq_true_eq,
      List.all_eq_true]
    exact ⟨fun none => some_char (String.toList_eq_nil_iff.mp none), fun c => isNameChar_of_slugify⟩
  rw [validateSpeakerName, if_neg some_char, if_neg (by omega), if_pos matched]

/-- A speaker of the model checkpoint with its converted tensors, and the time for `created_at`. -/
structure StudioSpeaker where
  displayName : String
  ascii : String
  gptCondLatent : Ndarray
  speakerEmbedding : Ndarray
  createdAt : String

def StudioSpeaker.slug? (sp : StudioSpeaker) : Option SpeakerName :=
  if some_char : slugify sp.ascii ≠ "" then some ⟨slugify sp.ascii,
    validate_slugify some_char⟩ else none

def StudioSpeaker.fields (sp : StudioSpeaker) : Dict String String :=
  (((Dict.empty.set "name" (slugify sp.ascii)).set "original_name" sp.displayName).set "created_at"
    sp.createdAt).set "source" "studio"

def seedActions (d : SpeakersDir) (n : SpeakerName) (sp : StudioSpeaker) : List FileAction :=
  [.mkdir d.root n.component] ++
    saveActions (d.speakerDir n) sp.gptCondLatent sp.speakerEmbedding sp.fields

/-- A speaker is skipped that has no slug, or that is there already unless `--force` is given. -/
def seedPlan (d : SpeakersDir) (disk : Disk) (force : Bool) (sp : StudioSpeaker) :
    List FileAction :=
  match sp.slug? with
  | none => []
  | some n => if (d.file? disk n.name latentsNpz).isSome ∧ ¬ force then [] else seedActions d n sp

/-! ### The directory -/

/-- The writers of SPEAKERS_DIR. Each may be stopped, or raise, when so many of its file operations
are done; with all of them done it has finished. -/
inductive DiskEvent
  | register (r : Registration) (done : Nat)
  | deleteSome (n : SpeakerName) (gone : List (List Component × Component))
  | delete (n : SpeakerName)
  | seed (force : Bool) (sp : StudioSpeaker) (done : Nat)
  /-- A clone request keeps the upload under a fresh uuid with an audio extension or `.bin`. -/
  | upload (audio : List UInt8) (tmp : Component) (done : Nat)
  | removeTmp (tmp : Component)

def uploadActions (d : SpeakersDir) (audio : List UInt8) (tmp : Component) : List FileAction :=
  [.mkdir d.root tmpDir, .create (d.root ++ [tmpDir]) tmp,
    .fill (d.root ++ [tmpDir]) tmp (.audio audio)]

def diskStep (d : SpeakersDir) (disk : Disk) : DiskEvent → Option Disk
  | .register r done => runActions disk ((registerActions d disk r).take done)
  | .deleteSome n gone => removeBelow disk (d.speakerDir n) gone
  | .delete n => some (disk.rmtree d.root n.component)
  | .seed force sp done => runActions disk ((seedPlan d disk force sp).take done)
  | .upload audio tmp done =>
      if tmp = latentsNpz ∨ tmp = metaJson then none
      else runActions disk ((uploadActions d audio tmp).take done)
  | .removeTmp tmp => disk.remove (d.root ++ [tmpDir]) tmp

def speakersDisk (d : SpeakersDir) (disk : Disk) : Machine Disk DiskEvent Unit where
  init := disk
  step disk e := (diskStep d disk e).map fun disk' => (disk', [])

end XttsServer.Model
