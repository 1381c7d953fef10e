import Mathlib.Algebra.Order.Floor.Semiring
import Mathlib.Data.Rat.Floor
import XttsServer.Model.Submission

/-!
What the server tells about itself: the statistics of the dispatcher, of the queue and
of the job store, as `GET /v1/system/info` and `GET /v1/jobs` put them together. The
handlers do not suspend between their reads, so each answer is of one state.
-/

set_option autoImplicit false
set_option relaxedAutoImplicit false

namespace XttsServer.Model

open XttsServer.Foundations (Dict)

/-! ### Dispatcher.worker_stats -/

/-- To the nearest integer, and to the even one of two. -/
def roundHalfEven (x : ℚ) : Int :=
  let below := ⌊x⌋
  let part := x - below
  if part < 1 / 2 then below
  else if 1 / 2 < part then below + 1
  else if below % 2 = 0 then below else below + 1

def round2 (x : ℚ) : ℚ := roundHalfEven (x * 100) / 100

structure ActiveJobInfo where
  jobId : JobId
  elapsedS : ℚ
  deriving DecidableEq

structure WorkerInfo where
  workerId : String
  gpuIndex : Nat
  activeRequests : Nat
  totalRequests : Nat
  avgSynthesisMs : ℚ
  alive : Bool
  activeJobs : List ActiveJobInfo
  deriving DecidableEq

def WorkerHandle.stats (w : WorkerHandle) (now : ℚ) (alive : Bool) : WorkerInfo where
  workerId := w.workerId
  gpuIndex := w.gpuIndex
  activeRequests := w.activeRequests
  totalRequests := w.totalRequests
  avgSynthesisMs := if w.totalRequests ≠ 0 then w.totalSynthesisMs / w.totalRequests else 0
  alive
  activeJobs := w.activeJobs.entries.map fun e =>
    { jobId := e.1, elapsedS := round2 (now - e.2) }

/-- `worker_stats`; `alive` answers `process.is_alive()`. -/
def workerStats (now : ℚ) (alive : WorkerRef → Bool) (workers : List WorkerHandle) :
    List WorkerInfo :=
  workers.zipIdx.map fun (w, i) => w.stats now (alive i)

/-! ### QueueManager.stats -/

structure QueueInfo where
  depth : Nat
  maxSize : Int
  deriving DecidableEq

def queueStats (cfg : Config) (s : State) : QueueInfo where
  depth := s.queue.length
  maxSize := cfg.settings.maxQueueSize

/-! ### GET /v1/system/info -/

/-- The part of a `SystemInfoResponse` that is about requests. -/
structure SystemInfo where
  uptimeS : ℚ
  workers : List WorkerInfo
  queue : QueueInfo
  jobs : JobCounts
  deriving DecidableEq

/-- `system_info` of an application that was started at `startTime`. -/
def systemInfo (cfg : Config) (startTime : ℚ) (alive : WorkerRef → Bool) (s : State) :
    SystemInfo where
  uptimeS := round2 (s.now - startTime)
  workers := workerStats s.now alive s.workers
  queue := queueStats cfg s
  jobs := s.jobs.stats

/-! ### GET /v1/jobs and GET /v1/jobs/{job_id} -/

def getJob (s : State) (jobId : JobId) : Except Exc JobResponse :=
  match s.jobs.get? jobId with
  | none => .error (.http 404 s!"Job '{jobId}' not found.")
  | some job => .ok (jobToResponse job)

structure JobListResponse where
  total : Nat
  jobs : List JobResponse
  deriving DecidableEq

/-- `list_jobs`, over the records in the order of the store. -/
def listJobs (s : State) : JobListResponse :=
  let responses := s.jobs.entries.map fun e => jobToResponse e.2
  { total := responses.length, jobs := responses }

/-! ### Facts about the statistics -/

private theorem roundHalfEven_nonneg {x : ℚ} (h : 0 ≤ x) : 0 ≤ roundHalfEven x := by
  have below : 0 ≤ ⌊x⌋ := Int.floor_nonneg.mpr h
  unfold roundHalfEven
  dsimp only
  split_ifs <;> omega

theorem round2_nonneg {x : ℚ} (h : 0 ≤ x) : 0 ≤ round2 x := by
  have scaled : 0 ≤ roundHalfEven (x * 100) := roundHalfEven_nonneg (by positivity)
  unfold round2
  positivity

theorem getElem?_workerStats (now : ℚ) (alive : WorkerRef → Bool) (workers : List WorkerHandle)
    (i : WorkerRef) :
    (workerStats now alive workers)[i]? = (workers[i]?).map fun w => w.stats now (alive i) := by
  simp [workerStats, List.getElem?_zipIdx, Function.comp_def]

theorem map_workerStats {β : Type} {f : WorkerInfo → β} {g : WorkerHandle → β} {now : ℚ}
    (same : ∀ w alive, f (w.stats now alive) = g w) (alive : WorkerRef → Bool)
    (workers : List WorkerHandle) : (workerStats now alive workers).map f = workers.map g := by
  apply List.ext_getElem?
  intro i
  simp [getElem?_workerStats, Function.comp_def, same]

theorem countP_listJobs (s : State) (status : JobStatus) :
    (listJobs s).jobs.countP (·.status = status.value) = s.jobs.count status := by
  have same : ∀ a b : JobStatus, a.value = b.value ↔ a = b := by
    intro a b
    cases a <;> cases b <;> decide
  simp [listJobs, JobStore.count, List.countP_map, Function.comp_def, jobToResponse, same]

theorem mem_listJobs {s : State} (filed : s.jobs.Filed) (r : JobResponse) :
    r ∈ (listJobs s).jobs ↔ getJob s r.jobId = .ok r := by
  have named : ∀ job : Job, (jobToResponse job).jobId = job.jobId := fun _ => rfl
  constructor
  · intro listed
    obtain ⟨⟨j, job⟩, entry, rfl⟩ := List.mem_map.mp listed
    have found := (Dict.get?_eq_some_iff _ _ _).mpr entry
    rw [named, filed.own j job found, getJob, found]
  · intro answer
    unfold getJob at answer
    split at answer
    · cases answer
    · rename_i job found
      obtain rfl := Except.ok.inj answer
      exact List.mem_map.mpr ⟨_, (Dict.get?_eq_some_iff _ _ _).mp found, rfl⟩

private theorem length_eq_counts (entries : List (JobId × Job)) :
    entries.length = entries.countP (·.2.status = .pending) +
      entries.countP (·.2.status = .running) + entries.countP (·.2.status = .done) +
        entries.countP (·.2.status = .failed) := by
  induction entries with
  | nil => rfl
  | cons e rest ih =>
    cases status : e.2.status <;> simp [status, ih] <;> omega

theorem total_listJobs (s : State) : (listJobs s).total = s.jobs.stats.total := by
  simp only [listJobs, List.length_map, JobStore.stats, JobStore.count]
  exact length_eq_counts s.jobs.entries

end XttsServer.Model
