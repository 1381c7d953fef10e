import XttsServer.Foundations.Balance
import XttsServer.Guarantees.Dispatch

/-!
How evenly the routing of `dispatch` spreads the requests: over the GPUs, and over
the workers of each.
-/

set_option autoImplicit false
set_option relaxedAutoImplicit false

namespace XttsServer.Guarantees

open XttsServer.Model XttsServer.Foundations.LeastLoaded XttsServer.Foundations.Balance
open XttsServer.Foundations.Transition XttsServer.Foundations.Ledger

variable {cfg : Config} {P : State → Event → Prop} {tr o : List Obs} {s s' s₀ : State} {e : Event}

def gpuLoad (workers : List WorkerHandle) (gpu : Nat) : ℕ :=
  groupLoad WorkerHandle.gpuIndex WorkerHandle.activeRequests workers gpu

def gpus (workers : List WorkerHandle) : List Nat := groups WorkerHandle.gpuIndex workers

def gpuLoads (workers : List WorkerHandle) : List ℕ :=
  groupLoads WorkerHandle.gpuIndex WorkerHandle.activeRequests workers

def workersOf (workers : List WorkerHandle) (gpu : Nat) : List WorkerHandle :=
  workers.filter fun w => w.gpuIndex = gpu

def dispatchAll : List WorkerHandle → List (JobId × ℚ) → Option (List WorkerHandle)
  | workers, [] => some workers
  | workers, (jobId, now) :: rest =>
      (dispatchTo workers jobId now).bind fun (_, workers') => dispatchAll workers' rest

structure BalancedStep (workers : List WorkerHandle) (i : WorkerRef) (workers' : List WorkerHandle)
    (w : WorkerHandle) : Prop where
  picked : workers[i]? = some w
  gpus_spread : spread (gpuLoads workers') ≤ max (spread (gpuLoads workers)) 1
  workers_spread : spread ((workersOf workers' w.gpuIndex).map WorkerHandle.activeRequests) ≤
    max (spread ((workersOf workers w.gpuIndex).map WorkerHandle.activeRequests)) 1
  others : ∀ gpu, gpu ≠ w.gpuIndex → workersOf workers' gpu = workersOf workers gpu
  idle : (∃ gpu ∈ gpus workers, ∀ v ∈ workersOf workers gpu, v.activeRequests = 0) →
    w.activeRequests = 0 ∧ ∀ v ∈ workersOf workers w.gpuIndex, v.activeRequests = 0

/-- Each GPU has its share of `n` requests, rounded down or up, and so has each worker of its
GPU. -/
structure EvenlyLoaded (n : ℕ) (workers : List WorkerHandle) : Prop where
  shared : ∀ gpu ∈ gpus workers, gpuLoad workers gpu = n / (gpus workers).length ∨
    gpuLoad workers gpu = (n + (gpus workers).length - 1) / (gpus workers).length
  even : ∀ gpu, ∀ v ∈ workersOf workers gpu, ∀ w ∈ workersOf workers gpu,
    v.activeRequests ≤ w.activeRequests + 1

def dispatches (tr : List Obs) : ℕ := (taken (slotLog tr)).length

def unreleased (tr : List Obs) : Prop := given (slotLog tr) = []

/-- What the routing does for the load: at each `dispatch`, over many of them, and over the
runs of a server. -/
structure BalancedRouting (cfg : Config) : Prop where
  /-- A GPU for each entry of `workers_per_gpu_list`. -/
  topology : gpus (start cfg.cudaOk cfg.settings.workersPerGpuList) =
    List.range cfg.settings.workersPerGpuList.length
  /-- The slots of the server are taken so. -/
  critical : ∀ (s : State) (r : Request) (w : WorkerRef), pickWorker s.workers = some w →
    dispatchTo s.workers r.jobId s.now = some (w, (takeSlot s r w).1.workers)
  once : ∀ workers jobId now, workers ≠ [] → ∃ i workers' w,
    dispatchTo workers jobId now = some (i, workers') ∧ BalancedStep workers i workers' w
  many : ∀ workers, workers ≠ [] → (∀ w ∈ workers, w.activeRequests = 0) → ∀ calls, ∃ workers',
    dispatchAll workers calls = some workers' ∧ EvenlyLoaded calls.length workers'
  runs : ∀ tr s tr' s', Reach (server cfg) anyStep tr s → (∀ w ∈ s.workers, w.activeRequests = 0) →
    Run (server cfg) anyStep s tr' s' → unreleased tr' → EvenlyLoaded (dispatches tr') s'.workers

private theorem acquire_bumps (jobId : JobId) (now : ℚ) :
    Bump WorkerHandle.gpuIndex WorkerHandle.activeRequests fun w => w.acquire jobId now :=
  ⟨fun _ => rfl, fun _ => rfl⟩

private theorem mem_workersOf {workers : List WorkerHandle} {gpu : Nat} {w : WorkerHandle} :
    w ∈ workersOf workers gpu ↔ w ∈ workers ∧ w.gpuIndex = gpu := by
  rw [workersOf, List.mem_filter, decide_eq_true_eq]

private theorem balanced_step {workers workers' : List WorkerHandle} {i : WorkerRef} {jobId : JobId}
    {now : ℚ} (h : dispatchTo workers jobId now = some (i, workers')) :
    ∃ w, BalancedStep workers i workers' w := by
  obtain ⟨i, picked, same⟩ := Option.map_eq_some_iff.mp h
  obtain ⟨rfl, rfl⟩ := Prod.mk.inj same
  have bumps := acquire_bumps jobId now
  obtain ⟨w, at', -⟩ := pick_least picked
  refine ⟨w, at', spread_groupLoads_pick bumps picked, spread_memberLoads_pick bumps picked _,
    fun gpu other => members_modify_other bumps at' (Ne.symm other), ?_⟩
  rintro ⟨gpu, there, idle⟩
  obtain ⟨v, at'', zero, all⟩ := pick_idle picked there fun b member same =>
    idle b (mem_workersOf.mpr ⟨member, same⟩)
  obtain rfl : v = w := Option.some.inj (at''.symm.trans at')
  exact ⟨zero, fun b member => all b (mem_workersOf.mp member).1 (mem_workersOf.mp member).2⟩

/-! ### Many dispatches -/

abbrev RoutedFrom (workers : List WorkerHandle) (n : ℕ) (workers' : List WorkerHandle) : Prop :=
  Routed WorkerHandle.gpuIndex WorkerHandle.activeRequests workers n workers'

private theorem evenly_of_routed {n : ℕ} {workers workers' : List WorkerHandle}
    (idle : ∀ w ∈ workers, w.activeRequests = 0) (routed : RoutedFrom workers n workers') :
    EvenlyLoaded n workers' := by
  obtain ⟨shared, even⟩ := routed.balanced idle
  have same : gpus workers' = gpus workers := routed.groups_eq
  constructor
  · intro gpu there
    rw [same] at there ⊢
    exact shared gpu there
  · intro gpu v hv w hw
    obtain ⟨in_v, here⟩ := mem_workersOf.mp hv
    obtain ⟨in_w, there⟩ := mem_workersOf.mp hw
    exact even v in_v w in_w (here.trans there.symm)

private theorem dispatchAll_routed {first workers : List WorkerHandle} {n : ℕ}
    (before : RoutedFrom first n workers) (some_worker : workers ≠ []) (calls : List (JobId × ℚ)) :
    ∃ workers', dispatchAll workers calls = some workers' ∧
      RoutedFrom first (n + calls.length) workers' := by
  induction calls generalizing workers n with
  | nil => exact ⟨workers, rfl, before⟩
  | cons call calls ih =>
    obtain ⟨jobId, now⟩ := call
    obtain ⟨i, picked⟩ := pickWorker_isSome some_worker
    have more : workers.modify i (fun w => w.acquire jobId now) ≠ [] := by
      rw [← List.length_pos_iff_ne_nil, List.length_modify, List.length_pos_iff_ne_nil]
      exact some_worker
    obtain ⟨workers', all, routed⟩ := ih (before.tail (acquire_bumps jobId now) picked) more
    refine ⟨workers', ?_, ?_⟩
    · rw [dispatchAll, dispatchTo, picked, Option.map_some, Option.bind_some]
      exact all
    · rw [List.length_cons, Nat.add_comm calls.length, ← Nat.add_assoc]
      exact routed

/-! ### Runs of the server -/

private theorem unchanged_of_releases {w : WorkerRef} {ms : ℚ} {j : JobId}
    {workers : List WorkerHandle} {drain : DrainPc} (h : s.releases w ms j workers drain none) :
    workers = s.workers := by
  rcases h.cases with ⟨-, same, -⟩ | ⟨handle, -, -, same, -, none⟩
  · exact same
  · rw [same, release, ← none]

/-- A change that gives nothing back puts what it dispatches where the routing says. -/
private theorem routed_of_change {n : ℕ} {first : List WorkerHandle} (before : Visit cfg P tr s)
    (change : Change cfg s₀ e s s' o) (kept : unreleased o)
    (routed : RoutedFrom first n s.workers) :
    RoutedFrom first (n + dispatches o) s'.workers := by
  cases change.slots before with
  | same workers log =>
    rw [dispatches, log, workers]
    exact routed
  | takes told workers log =>
    rw [dispatches, log, workers]
    exact routed.tail (acquire_bumps _ _) (change.dispatches told).1
  | @gives j w ms i _ slot log =>
    cases i with
    | none =>
      rw [dispatches, log, unchanged_of_releases slot]
      exact routed
    | some i =>
      rw [unreleased, log] at kept
      cases kept
  | drops _ workers log =>
    rw [dispatches, log, workers]
    exact routed

private theorem routed_of_run {tr' : List Obs} (h : Visit cfg P tr s)
    (run : Chain (Allowed cfg P) s tr' s') (kept : unreleased tr') :
    RoutedFrom s.workers (dispatches tr') s'.workers := by
  induction run with
  | refl => exact .refl
  | @tail a b mid o before allowed ih =>
    obtain ⟨s₀, e, -, change⟩ := allowed
    obtain ⟨kept, unreleased⟩ : unreleased mid ∧ unreleased o := by
      simpa [Guarantees.unreleased, given] using kept
    have visit : Visit cfg P (tr ++ mid) a := h.trans before
    have sum : dispatches (mid ++ o) = dispatches mid + dispatches o := by
      simp [dispatches, taken]
    rw [sum]
    exact routed_of_change visit change unreleased (ih kept)

/-! ### The topology -/

private theorem gpus_startGpus (cudaOk : Bool) {counts : List Nat} (some_slot : ∀ n ∈ counts, 1 ≤ n)
    (k : Nat) : gpus ((counts.zipIdx k).flatMap fun (count, gpuIndex) =>
      startGpu cudaOk gpuIndex count) = List.range' k counts.length := by
  induction counts generalizing k with
  | nil => rfl
  | cons n counts ih =>
    have rest := ih (fun m hm => some_slot m (List.mem_cons_of_mem _ hm)) (k + 1)
    have slots : n ≠ 0 := Nat.one_le_iff_ne_zero.mp (some_slot n List.mem_cons_self)
    have same : (startGpu cudaOk k n).map WorkerHandle.gpuIndex = List.replicate n k := by
      simp [startGpu, Function.comp_def]
    have others : (((counts.zipIdx (k + 1)).flatMap fun (count, gpuIndex) =>
        startGpu cudaOk gpuIndex count).map WorkerHandle.gpuIndex).dedup =
          List.range' (k + 1) counts.length := rest
    have apart : List.Disjoint (List.replicate n k) (((counts.zipIdx (k + 1)).flatMap
        fun (count, gpuIndex) => startGpu cudaOk gpuIndex count).map WorkerHandle.gpuIndex) := by
      intro gpu here there
      rw [← List.mem_dedup, others, List.mem_range'_1] at there
      obtain rfl := List.eq_of_mem_replicate here
      omega
    rw [gpus, groups, List.zipIdx_cons, List.flatMap_cons, List.map_append, same,
      apart.dedup_append, others, List.replicate_dedup slots, List.length_cons, List.range'_succ]
    rfl

/-- Routing to the least loaded worker of the least loaded GPU spreads the requests evenly. -/
theorem balanced_routing (cfg : Config) : BalancedRouting cfg := by
  refine ⟨?_, fun s r w picked => ?_, ?_, ?_, ?_⟩
  · rw [start, gpus_startGpus cfg.cudaOk cfg.workers_valid.2, List.range_eq_range']
  · rw [dispatchTo, picked, Option.map_some, takeSlot]
  · intro workers jobId now some_worker
    obtain ⟨i, picked⟩ := pickWorker_isSome some_worker
    have routes : dispatchTo workers jobId now =
        some (i, workers.modify i fun w => w.acquire jobId now) := by
      rw [dispatchTo, picked, Option.map_some]
    obtain ⟨w, step⟩ := balanced_step routes
    exact ⟨i, _, w, routes, step⟩
  · intro workers some_worker idle calls
    obtain ⟨workers', all, routed⟩ := dispatchAll_routed .refl some_worker calls
    rw [Nat.zero_add] at routed
    exact ⟨workers', all, evenly_of_routed idle routed⟩
  · intro tr s tr' s' reach idle run kept
    exact evenly_of_routed idle (routed_of_run (visit_of_reach reach) (chain_of_run run) kept)

-- Three workers on the first GPU and one on the second share four requests two and two.
example : (dispatchAll (start true [3, 1]) [("a", 0), ("b", 0), ("c", 0), ("d", 0)]).map gpuLoads =
    some [2, 2] := by decide +kernel

end XttsServer.Guarantees
