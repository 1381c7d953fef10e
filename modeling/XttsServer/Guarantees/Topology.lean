import XttsServer.Guarantees.Balance
import XttsServer.Model.Settings

/-!
Which workers a server starts with for the settings it accepts, and whether
`release` finds the one that `dispatch` returned.
-/

set_option autoImplicit false
set_option relaxedAutoImplicit false

namespace XttsServer.Guarantees

open XttsServer.Model XttsServer.Foundations.Transition

variable {cfg : Config} {P : State → Event → Prop} {tr : List Obs} {s : State}

/-- Each worker that is started has its place in the topology, and an id that leads back to it. -/
structure UnambiguousWorkers (cfg : Config) (numGpus : Int) : Prop where
  some_worker : start cfg.cudaOk cfg.settings.workersPerGpuList ≠ []
  slots : (cfg.settings.workersPerGpuList.length : Int) = max numGpus 1
  each : ∀ gpu count, cfg.settings.workersPerGpuList[gpu]? = some count →
    (workersOf (start cfg.cudaOk cfg.settings.workersPerGpuList) gpu).length = count
  only : ∀ w ∈ start cfg.cudaOk cfg.settings.workersPerGpuList,
    w.gpuIndex < cfg.settings.workersPerGpuList.length
  distinct : DistinctIds (start cfg.cudaOk cfg.settings.workersPerGpuList)
  /-- What `release` updates for the worker of a dispatch is that worker. -/
  released : ∀ tr s, Reach (server cfg) anyStep tr s → ∀ r w handle, .dispatched r w ∈ tr →
    s.workers[w]? = some handle → releaseTarget s.workers handle.workerId = some w

/-! ### Ids -/

private theorem toDigits_inj {m n : Nat} (same : Nat.toDigits 10 m = Nat.toDigits 10 n) :
    m = n := by
  rw [← Nat.ofDigitChars_ten_toDigits (n := m), same, Nat.ofDigitChars_ten_toDigits]

private theorem toList_toString (n : Nat) : (toString n).toList = Nat.toDigits 10 n :=
  String.toList_ofList

private theorem dash_notMem_toDigits (n : Nat) : '-' ∉ Nat.toDigits 10 n := fun member => by
  have digit : '-'.isDigit = true := Nat.isDigit_of_mem_toDigits (by decide) (by decide) member
  cases digit

private theorem workerId_inj {cudaOk : Bool} {gpu slot gpu' slot' : Nat}
    (same : workerId cudaOk gpu slot = workerId cudaOk gpu' slot') :
    slot = slot' ∧ (cudaOk = true → gpu = gpu') := by
  have chars := congrArg String.toList same
  cases cudaOk with
  | false =>
    simp only [workerId, Bool.false_eq_true, if_false, String.toList_append, toList_toString,
      List.append_cancel_left_eq] at chars
    exact ⟨toDigits_inj chars, fun absurd => by cases absurd⟩
  | true =>
    simp only [workerId, if_true, String.toList_append, toList_toString, List.append_assoc,
      List.append_cancel_left_eq] at chars
    -- The dash ends the digits of the GPU.
    have tail : '-' ∉ 'w' :: Nat.toDigits 10 slot := by
      rw [List.mem_cons, not_or]
      exact ⟨by decide, dash_notMem_toDigits slot⟩
    obtain ⟨gpus, -, slots⟩ :=
      (List.append_cons_inj_of_notMem (dash_notMem_toDigits gpu) tail).mp chars
    exact ⟨toDigits_inj (List.cons.inj slots).2, fun _ => toDigits_inj gpus⟩

private theorem startGpu_ids_nodup (cudaOk : Bool) (gpu count : Nat) :
    ((startGpu cudaOk gpu count).map WorkerHandle.workerId).Nodup := by
  rw [startGpu, List.map_map]
  exact List.nodup_range.map_on fun slot _ slot' _ same => (workerId_inj same).1

private theorem mem_startGpu_ids {cudaOk : Bool} {gpu count : Nat} {id : String}
    (member : id ∈ (startGpu cudaOk gpu count).map WorkerHandle.workerId) :
    ∃ slot < count, id = workerId cudaOk gpu slot := by
  rw [startGpu, List.map_map, List.mem_map] at member
  obtain ⟨slot, range, rfl⟩ := member
  exact ⟨slot, List.mem_range.mp range, rfl⟩

/-- Ids are distinct where they name the GPU, or where there is only one. -/
private theorem distinctIds_start_iff {cudaOk : Bool} {counts : List Nat}
    (valid : counts ≠ [] ∧ ∀ n ∈ counts, 1 ≤ n) :
    DistinctIds (start cudaOk counts) ↔ cudaOk = true ∨ counts.length = 1 := by
  have some_gpu : 0 < counts.length := List.length_pos_iff_ne_nil.mpr valid.1
  rw [DistinctIds, start, List.map_flatMap, List.nodup_flatMap, List.pairwise_iff_getElem]
  constructor
  · rintro ⟨-, apart⟩
    by_contra! ⟨noCuda, several⟩
    obtain rfl : cudaOk = false := by simpa using noCuda
    -- The first workers of the first two slots have one id.
    have second : 1 < counts.length := by omega
    have first_id (gpu : Nat) (bound : gpu < counts.length) :
        workerId false 0 0 ∈ (startGpu false gpu counts[gpu]).map WorkerHandle.workerId := by
      rw [startGpu, List.map_map, List.mem_map]
      exact ⟨0, List.mem_range.mpr (valid.2 _ (List.getElem_mem bound)), rfl⟩
    have clash := apart 0 1 (by simpa using some_gpu) (by simpa using second) Nat.zero_lt_one
    simp only [Function.onFun, List.getElem_zipIdx, Nat.zero_add] at clash
    exact clash (first_id 0 some_gpu) (first_id 1 second)
  · intro named
    refine ⟨fun p _ => startGpu_ids_nodup cudaOk p.2 p.1, fun i j hi hj before => ?_⟩
    simp only [Function.onFun, List.getElem_zipIdx, Nat.zero_add]
    intro id here there
    obtain ⟨slot, -, rfl⟩ := mem_startGpu_ids here
    obtain ⟨slot', -, same⟩ := mem_startGpu_ids there
    rw [List.length_zipIdx] at hj
    rcases named with cuda | single
    · exact absurd ((workerId_inj same).2 cuda) (Nat.ne_of_lt before)
    · omega

/-! ### Slots -/

private theorem length_workersOf_startGpu (cudaOk : Bool) (k n gpu : Nat) :
    (workersOf (startGpu cudaOk k n) gpu).length = if gpu = k then n else 0 := by
  rw [workersOf, startGpu, List.filter_map, List.length_map]
  split_ifs with here
  · simp [Function.comp_def, here]
  · simp [Function.comp_def, Ne.symm here]

private theorem length_workersOf_startGpus (cudaOk : Bool) (counts : List Nat) (k gpu : Nat) :
    (workersOf ((counts.zipIdx k).flatMap fun (count, gpuIndex) => startGpu cudaOk gpuIndex count)
      gpu).length = if gpu < k then 0 else (counts[gpu - k]?).getD 0 := by
  induction counts generalizing k with
  | nil => simp [workersOf]
  | cons n counts ih =>
    have split : workersOf (((n :: counts).zipIdx k).flatMap
        fun (count, gpuIndex) => startGpu cudaOk gpuIndex count) gpu =
        workersOf (startGpu cudaOk k n) gpu ++ workersOf ((counts.zipIdx (k + 1)).flatMap
          fun (count, gpuIndex) => startGpu cudaOk gpuIndex count) gpu := List.filter_append ..
    rw [split, List.length_append, length_workersOf_startGpu, ih]
    rcases Nat.lt_trichotomy gpu k with below | rfl | above
    · rw [if_neg (Nat.ne_of_lt below), if_pos (Nat.lt_succ_of_lt below), if_pos below]
    · simp
    · have next : gpu - k = (gpu - (k + 1)) + 1 := by omega
      rw [if_neg (Nat.ne_of_gt above), if_neg (by omega), if_neg (by omega), next,
        List.getElem?_cons_succ, Nat.zero_add]

private theorem length_workersOf_start {cudaOk : Bool} {counts : List Nat} {gpu count : Nat}
    (slot : counts[gpu]? = some count) : (workersOf (start cudaOk counts) gpu).length = count := by
  rw [start, length_workersOf_startGpus, if_neg (Nat.not_lt_zero _), Nat.sub_zero, slot]
  rfl

private theorem gpuIndex_lt_of_start {cudaOk : Bool} {counts : List Nat} {w : WorkerHandle}
    (member : w ∈ start cudaOk counts) : w.gpuIndex < counts.length := by
  obtain ⟨⟨count, gpu⟩, pair, here⟩ := List.mem_flatMap.mp member
  obtain ⟨slot, -, rfl⟩ := List.mem_map.mp here
  exact (List.getElem?_eq_some_iff.mp (List.mk_mem_zipIdx_iff_getElem?.mp pair)).1

/-! ### Releases -/

variable {db : CharacterDatabase} {torch : Torch} {env : Environment} {n : Int}
  {settings : Settings}

private theorem releaseTarget_of_reach (h : Reach (server cfg) anyStep tr s)
    (distinct : DistinctIds (start cfg.cudaOk cfg.settings.workersPerGpuList)) {w : WorkerRef}
    {handle : WorkerHandle} (found : s.workers[w]? = some handle) :
    releaseTarget s.workers handle.workerId = some w := by
  have ids := ids_fixed (visit_of_reach h)
  have still : DistinctIds s.workers := by
    rw [DistinctIds, ids]
    exact distinct
  have listed : handle.workerId ∈ s.workers.map WorkerHandle.workerId :=
    List.mem_map_of_mem (List.mem_of_getElem? found)
  rw [ids] at listed
  obtain ⟨first, member, same⟩ := List.mem_map.mp listed
  exact releaseTarget_of_distinct still found (same ▸ start_workerId_ne_empty member)

/-- A server tells its workers apart exactly where CUDA is available, or where there is a single
GPU slot. -/
theorem unambiguous_workers_iff (h : env.load db torch = .ok (n, settings)) (cudaOk : Bool) :
    UnambiguousWorkers (Environment.config h cudaOk) n ↔ cudaOk = true ∨ n ≤ 1 := by
  obtain ⟨-, slots, -⟩ := Environment.load_ok h
  have valid := (Environment.config h cudaOk).workers_valid
  have single : settings.workersPerGpuList.length = 1 ↔ n ≤ 1 := by omega
  have ids : DistinctIds (start cudaOk settings.workersPerGpuList) ↔
      cudaOk = true ∨ settings.workersPerGpuList.length = 1 := distinctIds_start_iff valid
  constructor
  · intro unambiguous
    exact (ids.mp unambiguous.distinct).imp id single.mp
  · intro condition
    have distinct := ids.mpr (condition.imp id single.mpr)
    exact ⟨start_ne_nil valid, slots, fun _ _ => length_workersOf_start,
      fun _ => gpuIndex_lt_of_start, distinct,
      fun _ _ reach _ _ _ _ found => releaseTarget_of_reach reach distinct found⟩

def ascii : CharacterDatabase where
  isSpace c := c ∈ [' ', '\t', '\n', '\x0b', '\x0c', '\r', '\x1c', '\x1d', '\x1e', '\x1f']
  isDigit c := c.isDigit
  decimal c := if c.isDigit then some (c.toNat - '0'.toNat) else none

def twoGpus : Environment := { numGpus := some 2 }

private theorem twoGpus_load (torch : Torch) :
    twoGpus.load ascii torch = .ok (2, { workersPerGpuList := [1, 1] }) := rfl

theorem unambiguous_workers_iff_two_gpus :
    (UnambiguousWorkers (Environment.config (twoGpus_load ⟨true, 2⟩) true) 2 ↔
      true = true ∨ (2 : Int) ≤ 1) ∧
    (UnambiguousWorkers (Environment.config (twoGpus_load ⟨false, 0⟩) false) 2 ↔
      false = true ∨ (2 : Int) ≤ 1) :=
  ⟨unambiguous_workers_iff (twoGpus_load ⟨true, 2⟩) true,
    unambiguous_workers_iff (twoGpus_load ⟨false, 0⟩) false⟩

/-- Without CUDA the first worker of the second slot has the id of the first worker of all. -/
theorem ambiguous_workers : ¬ ∀ db torch env n settings,
    ∀ h : Environment.load env db torch = .ok (n, settings), ∀ cudaOk,
      UnambiguousWorkers (Environment.config h cudaOk) n := by
  intro all
  have distinct := (all ascii ⟨false, 0⟩ twoGpus 2 _ (twoGpus_load _) false).distinct
  have same : ¬ DistinctIds (start false [1, 1]) := by decide +kernel
  exact same distinct

end XttsServer.Guarantees
