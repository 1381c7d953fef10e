import Mathlib.Algebra.Order.Ring.Rat
import Mathlib.Data.List.Flatten
import XttsServer.Foundations.Dict
import XttsServer.Foundations.LeastLoaded
import XttsServer.Model.Requests

/-!
The worker handles of the dispatcher: their creation, the routing decision and
the slot accounting of `dispatch` and `release`. The Condition's lock is never
held across a suspension, so each critical section is one atomic update.
-/

set_option autoImplicit false
set_option relaxedAutoImplicit false

namespace XttsServer.Model

open XttsServer.Foundations (Dict)
open XttsServer.Foundations.LeastLoaded

/-- What the parent process records about a worker. The process itself and its
`request_queue` are kept apart, under the same `WorkerRef`. -/
structure WorkerHandle where
  workerId : String
  gpuIndex : Nat
  activeRequests : Nat := 0
  totalRequests : Nat := 0
  totalSynthesisMs : ℚ := 0
  activeJobs : Dict JobId ℚ := .empty

/-- The id of the worker in a slot of a GPU, `cpu-w{slot}` on every GPU index without CUDA. -/
def workerId (cudaOk : Bool) (gpuIndex slot : Nat) : String :=
  if cudaOk then s!"gpu{gpuIndex}-w{slot}" else s!"cpu-w{slot}"

/-- The handles that `Dispatcher.start` appends for one entry of `workers_per_gpu_list`. -/
def startGpu (cudaOk : Bool) (gpuIndex count : Nat) : List WorkerHandle :=
  (List.range count).map fun slot => { workerId := workerId cudaOk gpuIndex slot, gpuIndex }

def start (cudaOk : Bool) (workersPerGpuList : List Nat) : List WorkerHandle :=
  workersPerGpuList.zipIdx.flatMap fun (count, gpuIndex) => startGpu cudaOk gpuIndex count

def allBusy (workers : List WorkerHandle) : Bool :=
  !workers.isEmpty && workers.all fun w => 1 ≤ w.activeRequests

/-- `_pick_worker`: the first worker with the least pair of its GPU's total and its own
`active_requests`; `none` where `dispatch` raises for want of workers. -/
def pickWorker (workers : List WorkerHandle) : Option WorkerRef :=
  (leastLoaded (fun p : WorkerHandle × WorkerRef => p.1.gpuIndex) (fun p => p.1.activeRequests)
    workers.zipIdx).map Prod.snd

/-- The critical section of `dispatch` on the picked worker. -/
def WorkerHandle.acquire (w : WorkerHandle) (jobId : JobId) (now : ℚ) : WorkerHandle :=
  { w with
    activeRequests := w.activeRequests + 1
    activeJobs := w.activeJobs.set jobId now }

/-- The critical section of `dispatch`, which picks the worker in it. -/
def dispatchTo (workers : List WorkerHandle) (jobId : JobId) (now : ℚ) :
    Option (WorkerRef × List WorkerHandle) :=
  (pickWorker workers).map fun i => (i, workers.modify i fun w => w.acquire jobId now)

/-- The body of `release` on the matching worker. `max(0, n - 1)` is subtraction on `Nat`. -/
def WorkerHandle.release (w : WorkerHandle) (elapsedMs : ℚ) (jobId : JobId) : WorkerHandle :=
  { w with
    activeRequests := w.activeRequests - 1
    totalSynthesisMs := w.totalSynthesisMs + elapsedMs
    totalRequests := w.totalRequests + 1
    activeJobs := if jobId ≠ "" then w.activeJobs.erase jobId else w.activeJobs }

/-- The handle that `release(worker_id)` updates: the first one with that id. -/
def releaseTarget (workers : List WorkerHandle) (workerId : String) : Option WorkerRef :=
  if workerId = "" then none else workers.findIdx? fun w => w.workerId = workerId

/-- `release`, without the notification. -/
def release (workers : List WorkerHandle) (workerId : String) (elapsedMs : ℚ) (jobId : JobId) :
    List WorkerHandle :=
  match releaseTarget workers workerId with
  | some i => workers.modify i fun w => w.release elapsedMs jobId
  | none => workers

/-! ### Facts about the handles -/

private theorem startGpu_workerId_ne_empty {cudaOk : Bool} {gpuIndex count : Nat} {w : WorkerHandle}
    (h : w ∈ startGpu cudaOk gpuIndex count) : w.workerId ≠ "" := by
  obtain ⟨slot, _, rfl⟩ := List.mem_map.mp h
  intro none
  have := congrArg String.length none
  cases cudaOk <;> simp [workerId] at this

theorem start_workerId_ne_empty {cudaOk : Bool} {counts : List Nat} {w : WorkerHandle}
    (h : w ∈ start cudaOk counts) : w.workerId ≠ "" := by
  obtain ⟨⟨count, gpuIndex⟩, _, member⟩ := List.mem_flatMap.mp h
  exact startGpu_workerId_ne_empty member

theorem start_idle {cudaOk : Bool} {counts : List Nat} {w : WorkerHandle}
    (h : w ∈ start cudaOk counts) :
    w.activeRequests = 0 ∧ w.totalRequests = 0 ∧ w.activeJobs = .empty := by
  obtain ⟨⟨count, gpuIndex⟩, _, member⟩ := List.mem_flatMap.mp h
  obtain ⟨slot, _, rfl⟩ := List.mem_map.mp member
  exact ⟨rfl, rfl, rfl⟩

theorem start_ne_nil {cudaOk : Bool} {counts : List Nat}
    (valid : counts ≠ [] ∧ ∀ n ∈ counts, 1 ≤ n) : start cudaOk counts ≠ [] := by
  obtain ⟨some_gpu, some_slot⟩ := valid
  cases counts with
  | nil => exact absurd rfl some_gpu
  | cons count rest =>
    have slots : count ≠ 0 := Nat.one_le_iff_ne_zero.mp (some_slot count List.mem_cons_self)
    simp [start, startGpu, slots]

private theorem gpuIndex_startGpus (cudaOk : Bool) {counts : List Nat}
    (single : ∀ n ∈ counts, n = 1) (k : Nat) : ((counts.zipIdx k).flatMap fun (count, gpuIndex) =>
      startGpu cudaOk gpuIndex count).map WorkerHandle.gpuIndex = List.range' k counts.length := by
  induction counts generalizing k with
  | nil => rfl
  | cons n counts ih =>
    obtain rfl := single n List.mem_cons_self
    have rest := ih (fun m hm => single m (List.mem_cons_of_mem _ hm)) (k + 1)
    rw [List.zipIdx_cons, List.flatMap_cons, List.map_append, rest, List.length_cons,
      List.range'_succ]
    rfl

theorem gpuIndex_start_single (cudaOk : Bool) {counts : List Nat} (single : ∀ n ∈ counts, n = 1) :
    (start cudaOk counts).map WorkerHandle.gpuIndex = List.range counts.length := by
  rw [start, gpuIndex_startGpus cudaOk single, List.range_eq_range']

theorem pickWorker_eq_some {workers : List WorkerHandle} {i : WorkerRef}
    (h : pickWorker workers = some i) :
    ∃ w, workers[i]? = some w ∧
      leastLoaded (fun p : WorkerHandle × WorkerRef => p.1.gpuIndex) (fun p => p.1.activeRequests)
        workers.zipIdx = some (w, i) := by
  obtain ⟨⟨w, j⟩, found, rfl⟩ := Option.map_eq_some_iff.mp h
  exact ⟨w, List.mk_mem_zipIdx_iff_getElem?.mp (leastLoaded_mem found), found⟩

theorem pickWorker_isSome {workers : List WorkerHandle} (h : workers ≠ []) :
    ∃ i, pickWorker workers = some i := by
  have some_pairs : workers.zipIdx ≠ [] := by simpa [List.zipIdx_eq_nil_iff] using h
  obtain ⟨⟨w, i⟩, found⟩ : ∃ p, leastLoaded (fun p : WorkerHandle × WorkerRef => p.1.gpuIndex)
      (fun p => p.1.activeRequests) workers.zipIdx = some p := leastLoaded_isSome some_pairs
  exact ⟨i, by simp [pickWorker, found]⟩

def DistinctIds (workers : List WorkerHandle) : Prop := (workers.map WorkerHandle.workerId).Nodup

instance (workers : List WorkerHandle) : Decidable (DistinctIds workers) :=
  inferInstanceAs (Decidable (List.Nodup _))

theorem releaseTarget_of_distinct {workers : List WorkerHandle} (distinct : DistinctIds workers)
    {i : WorkerRef} {w : WorkerHandle} (h : workers[i]? = some w) (named : w.workerId ≠ "") :
    releaseTarget workers w.workerId = some i := by
  rw [releaseTarget, if_neg named, List.findIdx?_eq_some_iff_getElem]
  obtain ⟨bound, rfl⟩ := List.getElem?_eq_some_iff.mp h
  refine ⟨bound, by simp, fun j before => ?_⟩
  have apart := (List.pairwise_iff_getElem.mp distinct) j i (by simp; omega) (by simpa) before
  simpa using apart

end XttsServer.Model
