import Mathlib.Algebra.Order.Ring.Rat
import XttsServer.Foundations.Dict
import XttsServer.Model.Requests

/-!
The in-memory job store and the directory of audio files it points into. Every
method holds the store's lock without suspending, so each is one atomic update.
-/

set_option autoImplicit false
set_option relaxedAutoImplicit false

namespace XttsServer.Model

open XttsServer.Foundations (Dict)

inductive JobStatus
  | pending | running | done | failed
  deriving DecidableEq

def JobStatus.value : JobStatus → String
  | .pending => "pending"
  | .running => "running"
  | .done => "done"
  | .failed => "failed"

/-- The statuses that `_evict_expired` may remove. -/
def JobStatus.terminal : JobStatus → Bool
  | .done => true
  | .failed => true
  | _ => false

/-- Times are readings of `time.monotonic()` in seconds. -/
structure Job where
  jobId : JobId
  status : JobStatus := .pending
  createdAt : ℚ
  startedAt : Option ℚ := none
  finishedAt : Option ℚ := none
  audioPath : Option Path := none
  error : Option String := none
  textPreview : String := ""
  language : String := ""
  speakerId : String := ""
  workerId : String := ""
  gpuIndex : Int := -1
  deriving DecidableEq

abbrev JobStore := Dict JobId Job

/-- `text[:60].replace("\n", " ")`. -/
def textPreview (text : String) : String :=
  String.ofList ((text.toList.take 60).map fun c => if c = '\n' then ' ' else c)

/-- `JobStore.create`, with the id that `uuid.uuid4()` drew. -/
def JobStore.create (store : JobStore) (now : ℚ) (jobId : JobId)
    (text language speakerId : String) :
    JobStore :=
  store.set jobId
    { jobId, createdAt := now, textPreview := textPreview text, language, speakerId }

def Job.markRunning (job : Job) (now : ℚ) (workerId : String) (gpuIndex : Int) (elapsedMs : ℚ) :
    Job :=
  { job with status := .running, startedAt := some (now - elapsedMs / 1000), workerId, gpuIndex }

def Job.markDone (job : Job) (now : ℚ) (audioPath : Path) : Job :=
  { job with status := .done, finishedAt := some now, audioPath := some audioPath }

def Job.markFailed (job : Job) (now : ℚ) (error : String) : Job :=
  { job with status := .failed, finishedAt := some now, error := some error }

/-- What `mark_done` and `mark_failed` settle for good. -/
def Job.outcome (job : Job) : JobStatus × Option String × Option ℚ :=
  (job.status, job.error, job.finishedAt)

def Job.clearAudioPath (job : Job) : Job := { job with audioPath := none }

/-! The store's `mark_*` methods leave the store as it is when the record is gone. -/

def JobStore.markRunning (store : JobStore) (now : ℚ) (jobId : JobId) (workerId : String)
    (gpuIndex : Int) (elapsedMs : ℚ) : JobStore :=
  store.modify jobId fun job => job.markRunning now workerId gpuIndex elapsedMs

def JobStore.markDone (store : JobStore) (now : ℚ) (jobId : JobId) (audioPath : Path) : JobStore :=
  store.modify jobId fun job => job.markDone now audioPath

def JobStore.markFailed (store : JobStore) (now : ℚ) (jobId : JobId) (error : String) : JobStore :=
  store.modify jobId fun job => job.markFailed now error

def JobStore.clearAudioPath (store : JobStore) (jobId : JobId) : JobStore :=
  store.modify jobId Job.clearAudioPath

/-! ### routers/jobs.py -/

def Job.queueWaitMs (job : Job) : Option ℚ :=
  job.startedAt.map fun startedAt => (startedAt - job.createdAt) * 1000

def Job.synthesisMs (job : Job) : Option ℚ :=
  match job.startedAt, job.finishedAt with
  | some startedAt, some finishedAt => some ((finishedAt - startedAt) * 1000)
  | _, _ => none

def Job.totalMs (job : Job) : Option ℚ :=
  job.finishedAt.map fun finishedAt => (finishedAt - job.createdAt) * 1000

structure JobResponse where
  jobId : String
  status : String
  language : String
  speakerId : String
  textPreview : String
  workerId : String
  gpuIndex : Int
  queueWaitMs : Option ℚ
  synthesisMs : Option ℚ
  totalMs : Option ℚ
  audioUrl : Option String
  error : Option String
  deriving DecidableEq

def jobToResponse (job : Job) : JobResponse where
  jobId := job.jobId
  status := job.status.value
  language := job.language
  speakerId := job.speakerId
  textPreview := job.textPreview
  workerId := job.workerId
  gpuIndex := job.gpuIndex
  queueWaitMs := job.queueWaitMs
  synthesisMs := job.synthesisMs
  totalMs := job.totalMs
  audioUrl :=
    if job.status = .done ∧ orDefault job.audioPath "" ≠ "" then
      some s!"/v1/tts/{job.jobId}/audio"
    else none
  error := job.error

/-! ### Files -/

/-- The content of a file in `OUTPUTS_DIR`: still being written, or written in full. -/
inductive SavedFile
  | partially
  | complete (audio : Ndarray) (fmt : AudioFormat) (sampleRate : Nat)
  deriving DecidableEq

abbrev Files := Path → Option SavedFile

def Files.isFile (files : Files) (path : Path) : Bool := (files path).isSome

def Files.write (files : Files) (path : Path) (file : SavedFile) : Files :=
  Function.update files path (some file)

def Files.remove (files : Files) (path : Path) : Files := Function.update files path none

/-! ### TTL eviction -/

/-- The records that a pass with this cutoff removes. -/
def Job.expired (job : Job) (cutoff : ℚ) : Bool :=
  job.status.terminal && match job.finishedAt with
    | some finishedAt => finishedAt < cutoff
    | none => false

/-- The removal of the audio file of an expired record; `failures` are the paths whose
`os.remove` raises, which the pass logs and ignores. -/
def Job.removeAudio (job : Job) (files : Files) (failures : List Path) : Files :=
  match job.audioPath with
  | some path =>
      if path ≠ "" ∧ files.isFile path ∧ path ∉ failures then files.remove path else files
  | none => files

/-- The loop of `_evict_expired` over the copy of the items. -/
def evictLoop (cutoff : ℚ) (failures : List Path) :
    List (JobId × Job) → JobStore × Files → JobStore × Files
  | [], acc => acc
  | (jobId, job) :: rest, (store, files) =>
      if job.expired cutoff then
        evictLoop cutoff failures rest (store.erase jobId, job.removeAudio files failures)
      else evictLoop cutoff failures rest (store, files)

def evictExpired (store : JobStore) (files : Files) (now : ℚ) (ttl : Int) (failures : List Path) :
    JobStore × Files :=
  evictLoop (now - ttl) failures store.entries (store, files)

/-! ### Facts about the files -/

theorem Files.isFile_write (files : Files) (path : Path) (file : SavedFile) {q : Path}
    (there : q = path ∨ files.isFile q = true) : (files.write path file).isFile q = true := by
  by_cases same : q = path
  · simp [Files.isFile, Files.write, same]
  · simpa [Files.isFile, Files.write, same] using there

theorem Files.isFile_remove_of_ne (files : Files) {path q : Path} (other : q ≠ path) :
    (files.remove path).isFile q = files.isFile q := by
  simp [Files.isFile, Files.remove, other]

private theorem Job.removeAudio_apply (job : Job) (files : Files) (failures : List Path)
    (q : Path) :
    job.removeAudio files failures q =
      if q ≠ "" ∧ q ∉ failures ∧ job.audioPath = some q then none else files q := by
  cases named : job.audioPath with
  | none => simp [Job.removeAudio, named]
  | some path =>
    simp only [Job.removeAudio, named, Option.some.injEq]
    by_cases same : path = q
    · subst same
      by_cases there : files.isFile path = true
      · simp only [there, true_and, and_true]
        split_ifs
        · rw [Files.remove, Function.update_self]
        · rfl
      · have absent : files path = none := by simpa [Files.isFile] using there
        simp [there, absent]
    · have kept : files.remove path q = files q := Function.update_of_ne (Ne.symm same) ..
      simp only [same, and_false, if_false]
      split_ifs
      · exact kept
      · rfl

private theorem files_evictLoop (cutoff : ℚ) (failures : List Path)
    (entries : List (JobId × Job)) (store : JobStore) (files : Files) (q : Path) :
    (evictLoop cutoff failures entries (store, files)).2 q =
      if q ≠ "" ∧ q ∉ failures ∧
          ∃ e ∈ entries, e.2.expired cutoff = true ∧ e.2.audioPath = some q then none
      else files q := by
  induction entries generalizing store files with
  | nil => simp [evictLoop]
  | cons entry rest ih =>
    obtain ⟨j, job⟩ := entry
    simp only [evictLoop, List.mem_cons, exists_eq_or_imp]
    by_cases old : job.expired cutoff = true
    · rw [if_pos old, ih, Job.removeAudio_apply]
      by_cases named : job.audioPath = some q
      · simp only [old, named, true_or, and_true]
        split_ifs with later first
        · rfl
        · exact absurd ⟨later.1, later.2.1⟩ first
        · rfl
        · rfl
      · simp only [named, and_false, false_or, if_false]
    · rw [if_neg old, ih]
      simp only [old, Bool.false_eq_true, false_and, false_or]

/-- A pass removes the files of the expired records, as far as they can be removed, and changes no
other. -/
theorem files_evictExpired (store : JobStore) (files : Files) (now : ℚ) (ttl : Int)
    (failures : List Path) (q : Path) :
    (evictExpired store files now ttl failures).2 q =
      if q ≠ "" ∧ q ∉ failures ∧
          ∃ e ∈ store.entries, e.2.expired (now - ttl) = true ∧ e.2.audioPath = some q then none
      else files q := files_evictLoop ..

theorem isFile_evictExpired (store : JobStore) (files : Files) (now : ℚ) (ttl : Int)
    (failures : List Path) {q : Path} (there : files.isFile q = true)
    (spared : ∀ j job, store.get? j = some job → job.expired (now - ttl) = true →
      job.audioPath = some q → q ∈ failures) :
    (evictExpired store files now ttl failures).2.isFile q = true := by
  rw [Files.isFile, files_evictExpired, if_neg]
  · exact there
  · rintro ⟨-, unlisted, ⟨j, job⟩, member, old, named⟩
    exact unlisted (spared j job ((Dict.get?_eq_some_iff _ _ _).mpr member) old named)

theorem evictExpired_content (store : JobStore) (files : Files) (now : ℚ) (ttl : Int)
    (failures : List Path) (q : Path) :
    (evictExpired store files now ttl failures).2 q = files q ∨
      (evictExpired store files now ttl failures).2 q = none := by
  rw [files_evictExpired]
  split_ifs
  · exact .inr rfl
  · exact .inl rfl

theorem evictExpired_removes (store : JobStore) (files : Files) (now : ℚ) (ttl : Int)
    (failures : List Path) {j : JobId} {job : Job} {q : Path} (found : store.get? j = some job)
    (old : job.expired (now - ttl) = true) (named : job.audioPath = some q) (some_name : q ≠ "")
    (unlisted : q ∉ failures) :
    (evictExpired store files now ttl failures).2.isFile q = false := by
  have member := (Dict.get?_eq_some_iff _ _ _).mp found
  rw [Files.isFile, files_evictExpired, if_pos ⟨some_name, unlisted, _, member, old, named⟩]
  rfl

/-! ### Counts -/

structure JobCounts where
  total : Nat
  pending : Nat
  running : Nat
  done : Nat
  failed : Nat
  deriving DecidableEq

def JobStore.count (store : JobStore) (status : JobStatus) : Nat :=
  store.entries.countP fun e => e.2.status = status

def JobStore.stats (store : JobStore) : JobCounts where
  total := store.count .pending + store.count .running + store.count .done + store.count .failed
  pending := store.count .pending
  running := store.count .running
  done := store.count .done
  failed := store.count .failed

/-! ### Facts about the store -/

theorem JobStore.mem_keys_create (store : JobStore) (now : ℚ) (j : JobId) (text lang spk : String) :
    j ∈ (store.create now j text lang spk).keys := by
  rw [JobStore.create, Dict.mem_keys_set]
  exact .inr rfl

theorem JobStore.get?_create_of_ne (store : JobStore) (now : ℚ) (k : JobId)
    (text lang spk : String) {j : JobId} (other : j ≠ k) :
    (store.create now k text lang spk).get? j = store.get? j :=
  (Dict.get?_set _ _ _ _).trans (if_neg other)

theorem JobStore.status_create (store : JobStore) (now : ℚ) (k : JobId) (text lang spk : String) :
    ((store.create now k text lang spk).get? k).map Job.status = some .pending := by
  rw [JobStore.create, Dict.get?_set, if_pos rfl]
  rfl

structure JobStore.Filed (store : JobStore) : Prop where
  own : ∀ j job, store.get? j = some job → job.jobId = j

private theorem JobStore.Filed.modify {store : JobStore} (h : store.Filed) (k : JobId)
    {f : Job → Job}
    (same : ∀ job, (f job).jobId = job.jobId) : JobStore.Filed (Dict.modify store k f) := by
  refine ⟨fun j job found => ?_⟩
  rw [Dict.get?_modify] at found
  split_ifs at found with here
  · obtain ⟨old, there, rfl⟩ := Option.map_eq_some_iff.mp found
    exact (same old).trans (h.own j old (here ▸ there))
  · exact h.own j job found

theorem JobStore.Filed.create {store : JobStore} (h : store.Filed) (now : ℚ) (k : JobId)
    (text lang spk : String) : (store.create now k text lang spk).Filed := by
  refine ⟨fun j job found => ?_⟩
  rw [JobStore.create, Dict.get?_set] at found
  split_ifs at found with here
  · rw [← Option.some.inj found, here]
  · exact h.own j job found

theorem JobStore.Filed.markRunning {store : JobStore} (h : store.Filed) (now : ℚ) (k : JobId)
    (workerId : String) (gpuIndex : Int) (ms : ℚ) :
    (store.markRunning now k workerId gpuIndex ms).Filed := h.modify k fun _ => rfl

theorem JobStore.Filed.markDone {store : JobStore} (h : store.Filed) (now : ℚ) (k : JobId)
    (path : Path) : (store.markDone now k path).Filed := h.modify k fun _ => rfl

theorem JobStore.Filed.markFailed {store : JobStore} (h : store.Filed) (now : ℚ) (k : JobId)
    (error : String) : (store.markFailed now k error).Filed := h.modify k fun _ => rfl

theorem JobStore.Filed.clearAudioPath {store : JobStore} (h : store.Filed) (k : JobId) :
    (store.clearAudioPath k).Filed := h.modify k fun _ => rfl

@[simp] theorem JobStore.keys_markFailed (store : JobStore) (now : ℚ) (j : JobId) (error : String) :
    (store.markFailed now j error).keys = store.keys := Dict.keys_modify _ _ _

private theorem entries_evictLoop (cutoff : ℚ) (failures : List Path)
    (entries : List (JobId × Job)) (store : JobStore) (files : Files) :
    (evictLoop cutoff failures entries (store, files)).1.entries =
      store.entries.filter fun e => !entries.any fun x => x.1 = e.1 && x.2.expired cutoff := by
  induction entries generalizing store files with
  | nil => simp [evictLoop]
  | cons entry rest ih =>
    obtain ⟨j, job⟩ := entry
    rw [evictLoop]
    split_ifs with old
    · rw [ih, Dict.erase, List.filter_filter]
      refine List.filter_congr fun e _ => ?_
      by_cases here : j = e.1
      · simp [here, old]
      · simp [here, Ne.symm here]
    · rw [ih]
      refine List.filter_congr fun e _ => ?_
      simp [old]

theorem entries_evictExpired (store : JobStore) (files : Files) (now : ℚ) (ttl : Int)
    (failures : List Path) :
    (evictExpired store files now ttl failures).1.entries =
      store.entries.filter fun e => !e.2.expired (now - ttl) := by
  rw [evictExpired, entries_evictLoop]
  refine List.filter_congr fun e here => ?_
  have alone : (store.entries.any fun x => x.1 = e.1 && x.2.expired (now - ttl)) =
      e.2.expired (now - ttl) := by
    rw [Bool.eq_iff_iff, List.any_eq_true]
    constructor
    · rintro ⟨x, member, same⟩
      simp only [Bool.and_eq_true, decide_eq_true_eq] at same
      exact List.inj_on_of_nodup_map store.nodup member here same.1 ▸ same.2
    · exact fun old => ⟨e, here, by simp [old]⟩
  rw [alone]

theorem get?_evictExpired (store : JobStore) (files : Files) (now : ℚ) (ttl : Int)
    (failures : List Path) (k : JobId) :
    (evictExpired store files now ttl failures).1.get? k =
      (store.get? k).filter fun job => !job.expired (now - ttl) := by
  refine Option.ext fun job => ?_
  rw [Dict.get?_eq_some_iff, entries_evictExpired, List.mem_filter, Option.filter_eq_some_iff,
    Dict.get?_eq_some_iff]

end XttsServer.Model
