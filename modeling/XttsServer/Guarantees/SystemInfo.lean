import Mathlib.Algebra.BigOperators.Intervals
import XttsServer.Guarantees.Backpressure
import XttsServer.Runs.Downloads
import XttsServer.Runs.SystemInfo

/-!
The queue and the dispatcher are a service station, and what `GET /v1/system/info`
says about them accounts for every request that has come in.
-/

set_option autoImplicit false
set_option relaxedAutoImplicit false

namespace XttsServer.Guarantees

open XttsServer.Model XttsServer.Foundations XttsServer.Foundations.Transition
  XttsServer.Foundations.Ledger

variable {cfg : Config} {P : State → Event → Prop} {s s' s₀ : State} {e : Event}
  {tr o : List Obs}

/-! ### Two levels -/

/-- With distinct worker ids, what the queue, its drain loop and the dispatcher do is what a station
with one line does. -/
theorem queue_is_station
    (distinct : DistinctIds (start cfg.cudaOk cfg.settings.workersPerGpuList)) :
    Simulation (server cfg) anyStep (Station.station (stationRules cfg)) anyStep State.station
      Obs.station? := server_station (noShadow_of_distinct distinct)

theorem queue_is_station_two_workers :
    Simulation (server twoWorkers) anyStep (Station.station (stationRules twoWorkers)) anyStep
      State.station Obs.station? := queue_is_station (by decide +kernel)

/-! ### The station's observations on the server's trace -/

def latents (tr : List Obs) :
    List JobId := (Station.directs (tr.filterMap Obs.station?)).map Prod.fst

private theorem arrivals_station (tr : List Obs) :
    Station.arrivals (tr.filterMap Obs.station?) = (accepted tr).map QueuedItem.jobId := by
  rw [Station.arrivals, accepted, List.filterMap_filterMap, List.map_filterMap]
  congr 1
  funext obs
  cases obs with
  | dispatched r w => cases r <;> rfl
  | _ => rfl

private theorem admissions_station (tr : List Obs) :
    Station.admissions (tr.filterMap Obs.station?) =
      (drained tr).map fun p => (p.1.jobId, p.2) := by
  rw [Station.admissions, drained, List.filterMap_filterMap, List.map_filterMap]
  congr 1
  funext obs
  cases obs with
  | dispatched r w => cases r <;> rfl
  | _ => rfl

private theorem leftFrom_station (tr : List Obs) (i : WorkerRef) :
    Station.leftFrom (tr.filterMap Obs.station?) i = releasedOn tr i := by
  rw [Station.leftFrom, Station.departures, releasedOn, atPlace, given, slotLog,
    List.filterMap_filterMap, List.filterMap_filterMap]
  congr 3
  funext obs
  cases obs with
  | dispatched r w => cases r <;> rfl
  | _ => rfl

private theorem Change.started (before : Visit cfg P tr s) (change : Change cfg s₀ e s s' o) :
    (o.filterMap Obs.station?).filterMap Station.Obs.started? = taken (slotLog o) := by
  cases change with
  | jobTurnedAway _ _ told => rcases told with rfl | rfl <;> simp [taken]
  | @answered _ a answer => cases a <;> simp [Obs.isAnswer, taken] at answer ⊢
  | @drainDispatches s item rest w _ _ hand =>
    have kind := undispatched_proper before (hand.undispatched ▸ List.mem_cons_self)
    cases kind <;> rfl
  | cloneStart => rfl
  | @collected j w r cb t t0 outcome result workers drain i =>
    cases i <;> simp [Function.comp_def, taken]
  | @leave j r w pc next frame workers drain i => cases i <;> simp [Function.comp_def, taken]
  | @cloneDone j w r outcome workers drain i => cases i <;> simp [taken]
  | _ => simp [marks_eq_map, Function.comp_def, taken]

private theorem startedAt_station (h : Visit cfg P tr s) (i : WorkerRef) :
    Station.startedAt (tr.filterMap Obs.station?) i = dispatchedTo tr i := by
  have all : (tr.filterMap Obs.station?).filterMap Station.Obs.started? = taken (slotLog tr) := by
    induction h using visit_induction with
    | start => rfl
    | change before ih _ change =>
      have tail := Change.started before change
      simp only [slotLog, taken, List.filterMap_append] at ih tail ⊢
      rw [ih, tail]
  rw [Station.startedAt, all]
  rfl

/-! ### The report -/

structure WorkerAccounted (tr : List Obs) (now : ℚ) (i : WorkerRef) (info : WorkerInfo) : Prop where
  /-- Whatever was dispatched to the worker has been released or is listed. -/
  listed : (dispatchedTo tr i).Perm (releasedOn tr i ++ info.activeJobs.map ActiveJobInfo.jobId)
  active : info.activeRequests = info.activeJobs.length
  total : info.totalRequests = (releasedOn tr i).length
  elapsed : ∀ job ∈ info.activeJobs, 0 ≤ job.elapsedS
  average : 0 ≤ info.avgSynthesisMs ∧ info.avgSynthesisMs ≤ now * 1000

structure Accounted (cfg : Config) (tr : List Obs) (s : State) (info : SystemInfo) : Prop where
  /-- The workers are those that were started, in order. -/
  places : info.workers.map (fun w => (w.workerId, w.gpuIndex)) =
    (start cfg.cudaOk cfg.settings.workersPerGpuList).map WorkerHandle.place
  worker : ∀ i w, info.workers[i]? = some w → WorkerAccounted tr s.now i w
  /-- Every accepted request and every latent computation is in the queue, in the drain loop's hand,
  in progress or finished. -/
  balance : info.queue.depth + s.drain.undispatched?.toList.length +
      (info.workers.map fun w => w.activeRequests + w.totalRequests).sum =
    (accepted tr).length + (latents tr).length
  /-- Those that wait are the accepted ones that have not been dispatched. -/
  waiting : (accepted tr).length =
    (drained tr).length + (info.queue.depth + s.drain.undispatched?.toList.length)
  depth : 0 < info.queue.maxSize → info.queue.depth ≤ info.queue.maxSize ∧
    info.queue.depth + s.drain.undispatched?.toList.length ≤ info.queue.maxSize + 1
  /-- `GET /v1/jobs` lists what polling answers. -/
  listed : ∀ r, r ∈ (listJobs s).jobs ↔ getJob s r.jobId = .ok r
  /-- The counts are those of its entries. -/
  jobs : info.jobs.total = (listJobs s).total ∧
    info.jobs.pending = (listJobs s).jobs.countP (·.status = "pending") ∧
    info.jobs.running = (listJobs s).jobs.countP (·.status = "running") ∧
    info.jobs.done = (listJobs s).jobs.countP (·.status = "done") ∧
    info.jobs.failed = (listJobs s).jobs.countP (·.status = "failed")

private theorem average_within {w : WorkerHandle} {now : ℚ} (past : 0 ≤ now)
    (clocked : w.Clocked now) (alive : Bool) : 0 ≤ (w.stats now alive).avgSynthesisMs ∧
      (w.stats now alive).avgSynthesisMs ≤ now * 1000 := by
  simp only [WorkerHandle.stats]
  split_ifs with served
  · have some_served : (0 : ℚ) < w.totalRequests := by
      exact_mod_cast Nat.pos_of_ne_zero served
    exact ⟨div_nonneg clocked.nonneg some_served.le,
      (div_le_iff₀ some_served).mpr (by rw [mul_comm]; exact clocked.within)⟩
  · exact ⟨le_refl _, by positivity⟩

private theorem worker_accounted (ledger : Books (slotLog tr) s) (visit : Visit cfg P tr s)
    (seen : Reach (Station.station (stationRules cfg)) anyStep
      (tr.filterMap Obs.station?) s.station)
    (alive : WorkerRef → Bool) {i : WorkerRef} {w : WorkerHandle} (found : s.workers[i]? = some w) :
    WorkerAccounted tr s.now i (w.stats s.now (alive i)) := by
  have clocked := handles_clocked visit w (List.mem_of_getElem? found)
  have serving : s.station.serving i = w.activeJobs.keys := by
    simp [State.station, servingAt, found]
  have served : s.station.served i = w.totalRequests := by simp [State.station, servedAt, found]
  refine ⟨?_, ?_, ?_, ?_, average_within (waits_past visit).1 clocked _⟩
  · have perm := Station.startedAt_perm seen i
    rw [startedAt_station visit, leftFrom_station, serving] at perm
    simpa [WorkerHandle.stats, Dict.keys, Function.comp_def] using perm
  · have count : w.activeRequests = w.activeJobs.keys.length := by
      rw [ledger.active i w found, ledger.keys i w found]
    simpa [WorkerHandle.stats, Dict.keys] using count
  · have count := Station.served_eq seen i
    rwa [leftFrom_station, served] at count
  · intro job member
    obtain ⟨⟨j, t⟩, entry, rfl⟩ := List.mem_map.mp member
    have past := (clocked.started j t ((Dict.get?_eq_some_iff _ _ _).mpr entry)).2
    exact round2_nonneg (sub_nonneg.mpr past)

private theorem sum_range_workers (workers : List WorkerHandle) :
    ∑ i ∈ Finset.range workers.length, ((servingAt workers i).length + servedAt workers i) =
      (workers.map fun w => w.activeJobs.keys.length + w.totalRequests).sum := by
  induction workers with
  | nil => rfl
  | cons w rest ih =>
    rw [List.length_cons, Finset.sum_range_succ', List.map_cons, List.sum_cons, ← ih, add_comm]
    rfl

private theorem sum_load_station (ledger : Books (slotLog tr) s) (visit : Visit cfg P tr s) :
    ∑ i ∈ (stationRules cfg).servers, s.station.load i =
      (s.workers.map fun w => w.activeRequests + w.totalRequests).sum := by
  have fixed := congrArg List.length (ids_fixed visit)
  rw [List.length_map, List.length_map] at fixed
  rw [stationRules, ← fixed]
  refine (sum_range_workers s.workers).trans (congrArg List.sum (List.map_congr_left ?_))
  intro w member
  obtain ⟨i, found⟩ := List.getElem?_of_mem member
  rw [ledger.active i w found, ledger.keys i w found]

private theorem length_line (s : State) :
    s.station.line.length = s.queue.length + s.drain.undispatched?.toList.length := by
  rw [State.station, List.length_map, State.undispatched, List.length_append, add_comm]

/-- In every reachable state the report accounts for every request. -/
theorem system_info_accounts
    (distinct : DistinctIds (start cfg.cudaOk cfg.settings.workersPerGpuList))
    (startTime : ℚ) (alive : WorkerRef → Bool) (h : Reach (server cfg) anyStep tr s) :
    Accounted cfg tr s (systemInfo cfg startTime alive s) := by
  have noShadow : NoShadow cfg anyStep := noShadow_of_distinct distinct
  have visit := visit_of_reach h
  have ledger := books noShadow visit
  have seen := (server_station noShadow).reach h
  have waits : (systemInfo cfg startTime alive s).queue.depth +
      s.drain.undispatched?.toList.length = s.station.line.length := (length_line s).symm
  refine ⟨?_, ?_, ?_, ?_, ?_, mem_listJobs (filed visit), ?_⟩
  · rw [← places_fixed visit]
    exact map_workerStats (fun _ _ => rfl) alive s.workers
  · intro i info found
    rw [systemInfo, getElem?_workerStats] at found
    obtain ⟨w, there, rfl⟩ := Option.map_eq_some_iff.mp found
    exact worker_accounted ledger visit seen alive there
  · have all := Station.balance seen
    rw [sum_load_station ledger visit, arrivals_station, List.length_map, ← waits] at all
    have counters : (systemInfo cfg startTime alive s).workers.map
        (fun w => w.activeRequests + w.totalRequests) =
          s.workers.map fun w => w.activeRequests + w.totalRequests :=
      map_workerStats (fun _ _ => rfl) alive s.workers
    rw [counters, latents, List.length_map]
    exact all
  · have all := congrArg List.length (Station.arrivals_eq seen)
    rw [arrivals_station, admissions_station, List.length_append, ← waits] at all
    simpa using all
  · intro limited
    refine ⟨bounded visit limited, ?_⟩
    have most := Station.line_length_le seen (if_pos limited)
    rw [← waits] at most
    have bound : 0 < cfg.settings.maxQueueSize := limited
    change (_ : Int) ≤ cfg.settings.maxQueueSize + 1
    omega
  · refine ⟨(total_listJobs s).symm, ?_, ?_, ?_, ?_⟩ <;>
      exact (countP_listJobs s _).symm

theorem system_info_accounts_three_jobs :
    Accounted twoWorkers ((runOf twoWorkers threeJobs).get threeJobs_run).2
      ((runOf twoWorkers threeJobs).get threeJobs_run).1
      (systemInfo twoWorkers 0 (fun _ => true) ((runOf twoWorkers threeJobs).get
        threeJobs_run).1) :=
  system_info_accounts (by decide +kernel) 0 _ (reach_of_exec threeJobs_run)

end XttsServer.Guarantees
