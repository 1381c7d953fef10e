import XttsServer.Foundations.Station
import XttsServer.Runs.Accounting

/-!
The queue with its drain loop and the dispatcher with its handles, seen as a service
station: the line is what has been accepted and not been dispatched, and a worker is
serving the keys of its `active_jobs`.
-/

set_option autoImplicit false
set_option relaxedAutoImplicit false

namespace XttsServer.Model

open XttsServer.Foundations XttsServer.Foundations.Transition XttsServer.Foundations.Ledger

variable {cfg : Config} {P : State → Event → Prop} {s s' s₀ : State} {e : Event}
  {tr o : List Obs}

/-! ### The station -/

def stationRules (cfg : Config) : Station.Rules WorkerRef where
  servers := Finset.range (start cfg.cudaOk cfg.settings.workersPerGpuList).length
  capacity := if 0 < cfg.settings.maxQueueSize then some cfg.settings.maxQueueSize.toNat else none

def servingAt (workers : List WorkerHandle) (i : WorkerRef) : List JobId :=
  match workers[i]? with
  | some w => w.activeJobs.keys
  | none => []

def servedAt (workers : List WorkerHandle) (i : WorkerRef) : Nat :=
  match workers[i]? with
  | some w => w.totalRequests
  | none => 0

def State.station (s : State) : Station.State JobId WorkerRef where
  line := s.undispatched.map QueuedItem.jobId
  serving := servingAt s.workers
  served := servedAt s.workers

@[simp] def Obs.station? : Obs → Option (Station.Obs JobId WorkerRef)
  | .accepted item => some (.arrived item.jobId)
  | .rejected item => some (.turnedAway item.jobId)
  | .drained item w => some (.admitted item.jobId w)
  | .dispatched (.computeLatents r) w => some (.direct r.jobId w)
  | .released j w => some (.left j w)
  | _ => none

/-! ### Handles -/

private theorem servingAt_modify {workers : List WorkerHandle} {w : WorkerRef}
    {handle : WorkerHandle} (found : workers[w]? = some handle) (g : WorkerHandle → WorkerHandle) :
    servingAt (workers.modify w g) =
      Function.update (servingAt workers) w (g handle).activeJobs.keys := by
  funext i
  by_cases here : i = w
  · subst here
    simp [servingAt, found]
  · simp [servingAt, here, Ne.symm here]

private theorem servedAt_modify {workers : List WorkerHandle} {w : WorkerRef}
    {handle : WorkerHandle} (found : workers[w]? = some handle) (g : WorkerHandle → WorkerHandle) :
    servedAt (workers.modify w g) =
      Function.update (servedAt workers) w (g handle).totalRequests := by
  funext i
  by_cases here : i = w
  · subst here
    simp [servedAt, found]
  · simp [servedAt, here, Ne.symm here]

private theorem mem_servers (h : Visit cfg P tr s) {w : WorkerRef} {handle : WorkerHandle}
    (found : s.workers[w]? = some handle) : w ∈ (stationRules cfg).servers := by
  have range : w < s.workers.length := (List.getElem?_eq_some_iff.mp found).1
  have fixed := congrArg List.length (ids_fixed h)
  rw [List.length_map, List.length_map] at fixed
  exact Finset.mem_range.mpr (fixed ▸ range)

private theorem station_acquire {w : WorkerRef} {handle : WorkerHandle} {j : JobId}
    (found : s.workers[w]? = some handle) (absent : j ∉ handle.activeJobs.keys) (now : ℚ)
    (line : List JobId) :
    Station.State.begin { s.station with line } j w =
      { line
        serving := servingAt (s.workers.modify w fun handle => handle.acquire j now)
        served := servedAt (s.workers.modify w fun handle => handle.acquire j now) } := by
  have now_serving : servingAt s.workers w = handle.activeJobs.keys := by simp [servingAt, found]
  have has_served : servedAt s.workers w = handle.totalRequests := by simp [servedAt, found]
  have keys : (handle.acquire j now).activeJobs.keys = handle.activeJobs.keys ++ [j] :=
    Dict.keys_set_of_notMem _ _ _ absent
  have total : (handle.acquire j now).totalRequests = handle.totalRequests := rfl
  rw [servingAt_modify found, servedAt_modify found, keys, total, ← now_serving, ← has_served,
    Function.update_eq_self]
  rfl

private theorem station_release {w : WorkerRef} {handle : WorkerHandle} {j : JobId}
    (found : s.workers[w]? = some handle) (named : j ≠ "") (ms : ℚ) :
    s.station.finish j w =
      { line := s.station.line
        serving := servingAt (s.workers.modify w fun handle => handle.release ms j)
        served := servedAt (s.workers.modify w fun handle => handle.release ms j) } := by
  have now_serving : servingAt s.workers w = handle.activeJobs.keys := by simp [servingAt, found]
  have has_served : servedAt s.workers w = handle.totalRequests := by simp [servedAt, found]
  have keys : (handle.release ms j).activeJobs.keys = handle.activeJobs.keys.erase j := by
    rw [WorkerHandle.release, if_pos named]
    exact Dict.keys_erase _ _
  have total : (handle.release ms j).totalRequests = handle.totalRequests + 1 := rfl
  rw [servingAt_modify found, servedAt_modify found, keys, total, ← now_serving, ← has_served]
  rfl

/-! ### The queue -/

private theorem undispatched_length (s : State) :
    s.queue.length ≤ s.undispatched.length ∧ s.undispatched.length ≤ s.queue.length + 1 := by
  have one : s.drain.undispatched?.toList.length ≤ 1 := by
    cases s.drain.undispatched? <;> simp
  rw [State.undispatched, List.length_append]
  omega

private theorem station_room (room : queueFull cfg s = false) :
    (stationRules cfg).room s.station.line.length = true := by
  have bound := (undispatched_length s).2
  rw [queueFull, Bool.and_eq_false_iff, decide_eq_false_iff_not, decide_eq_false_iff_not] at room
  rw [Station.Rules.room, stationRules, State.station, List.length_map]
  split_ifs with limited
  · rw [Option.all_some, decide_eq_true_iff]
    have free := room.resolve_left (fun unlimited => unlimited limited)
    omega
  · rfl

private theorem station_full (full : queueFull cfg s = true) :
    (stationRules cfg).full s.station.line.length = true := by
  have bound := (undispatched_length s).1
  rw [queueFull, Bool.and_eq_true, decide_eq_true_iff, decide_eq_true_iff] at full
  rw [Station.Rules.full, stationRules, if_pos full.1, Option.any_some, decide_eq_true_iff,
    State.station, List.length_map]
  omega

/-! ### The server at work -/

/-- A change that the station does not see, or a move of the station. -/
def SeenAs (cfg : Config) (s s' : State) (o : List Obs) : Prop :=
  (s'.station = s.station ∧ o.filterMap Obs.station? = []) ∨
    Station.Moves (stationRules cfg) s.station s'.station (o.filterMap Obs.station?)

private theorem SeenAs.silent (undispatched : s'.undispatched = s.undispatched)
    (workers : s'.workers = s.workers) (told : o.filterMap Obs.station? = []) :
    SeenAs cfg s s' o := by
  refine .inl ⟨?_, told⟩
  rw [State.station, State.station, undispatched, workers]

private theorem SeenAs.arrival {item : QueuedItem} (room : queueFull cfg s = false)
    (queue : s'.queue = s.queue ++ [item]) (drain : s'.drain = s.drain)
    (workers : s'.workers = s.workers)
    (told : o.filterMap Obs.station? = [.arrived item.jobId]) : SeenAs cfg s s' o := by
  have line : s'.station = { s.station with line := s.station.line ++ [item.jobId] } := by
    simp [State.station, State.undispatched, queue, drain, workers]
  refine .inr ?_
  rw [told, line]
  exact .arrive (station_room room)

private theorem SeenAs.refusal (item : QueuedItem) (full : queueFull cfg s = true)
    (same : s'.station = s.station)
    (told : o.filterMap Obs.station? = [.turnedAway item.jobId]) : SeenAs cfg s s' o := by
  refine .inr ?_
  rw [told, same]
  exact .turnAway (station_full full)

private theorem SeenAs.departure (ledger : Books (slotLog tr) s) (before : Visit cfg P tr s)
    {j : JobId} {w : WorkerRef} {ms : ℚ} {i : Option WorkerRef} (owned : held s.tasks j = some w)
    (slot : s.releases w ms j s'.workers s'.drain i) (queue : s'.queue = s.queue)
    (told : o.filterMap Obs.station? = i.toList.map (.left j)) : SeenAs cfg s s' o := by
  have own := ledger.own j w (.inr owned)
  obtain ⟨rfl, workers⟩ := slot.unshadowed own
  obtain ⟨handle, found, -⟩ := own
  have serving : j ∈ s.station.serving w := by
    have owed := ledger.owed j w (.inr owned)
    rw [← mem_atPlace, ← ledger.keys w handle found] at owed
    simpa [State.station, servingAt, found] using owed
  have named := ne_empty_of_used before (held_named before owned)
  have undispatched : s'.undispatched = s.undispatched := by
    rw [State.undispatched, State.undispatched, slot.undispatched?, queue]
  have finished : s'.station = s.station.finish j w := by
    rw [station_release found named ms, State.station, workers, undispatched]
    rfl
  refine .inr ?_
  rw [told, finished]
  exact .leave (mem_servers before found) serving

private theorem Books.absent (ledger : Books (slotLog tr) s) {w : WorkerRef} {handle : WorkerHandle}
    {j : JobId} (found : s.workers[w]? = some handle)
    (new : j ∉ (taken (slotLog tr)).map Prod.fst) :
    j ∉ handle.activeJobs.keys := by
  rw [ledger.keys w handle found, mem_atPlace]
  exact fun owed => new
    (List.mem_map.mpr ⟨_, ledger.sound.outstanding_sublist.subset owed, rfl⟩)

private theorem Books.idle (ledger : Books (slotLog tr) s) (before : Visit cfg P tr s)
    (free : allBusy s.workers = false) :
    ∃ i ∈ (stationRules cfg).servers, s.station.serving i = [] := by
  have some_worker : s.workers.isEmpty = false := by simpa using workers_ne_nil before
  rw [allBusy, some_worker, Bool.not_false, Bool.true_and, List.all_eq_false] at free
  obtain ⟨handle, member, unbusy⟩ := free
  obtain ⟨i, found⟩ := List.getElem?_of_mem member
  have none_active : handle.activeRequests = 0 := by simpa using unbusy
  refine ⟨i, mem_servers before found, ?_⟩
  rw [ledger.active i handle found, ← ledger.keys i handle found,
    List.length_eq_zero_iff] at none_active
  simpa [State.station, servingAt, found] using none_active

private theorem station_of_dispatch (ledger : Books (slotLog tr) s) (before : Visit cfg P tr s)
    {r : Request} {w : WorkerRef}
    (new : r.jobId ∉ s.used ∨ ∃ item ∈ s.undispatched, item.request = r)
    (picked : pickWorker s.workers = some w)
    (workers : s'.workers = s.workers.modify w fun handle => handle.acquire r.jobId s.now) :
    w ∈ (stationRules cfg).servers ∧
      s'.station = Station.State.begin { s.station with line := s'.station.line } r.jobId w := by
  obtain ⟨handle, found, -⟩ := pickWorker_eq_some picked
  refine ⟨mem_servers before found, ?_⟩
  rw [station_acquire found (ledger.absent found (not_taken before new)) s.now, ← workers]
  rfl

private theorem SeenAs.direct (ledger : Books (slotLog tr) s) (before : Visit cfg P tr s)
    {r : Request}
    {w : WorkerRef} (fresh : r.jobId ∉ s.used) (picked : pickWorker s.workers = some w)
    (workers : s'.workers = s.workers.modify w fun handle => handle.acquire r.jobId s.now)
    (undispatched : s'.undispatched = s.undispatched)
    (told : o.filterMap Obs.station? = [.direct r.jobId w]) : SeenAs cfg s s' o := by
  obtain ⟨member, begun⟩ := station_of_dispatch ledger before (.inl fresh) picked workers
  have line : s'.station.line = s.station.line := by
    rw [State.station, State.station, undispatched]
  refine .inr ?_
  rw [told, begun, line]
  exact .direct member

private theorem SeenAs.admission (ledger : Books (slotLog tr) s) (before : Visit cfg P tr s)
    {item : QueuedItem} {w : WorkerRef} (picked : pickWorker s.workers = some w)
    (free : allBusy s.workers = false)
    (workers : s'.workers = s.workers.modify w fun handle => handle.acquire item.jobId s.now)
    (undispatched : s.undispatched = item :: s'.undispatched)
    (told : o.filterMap Obs.station? = [.admitted item.jobId w]) : SeenAs cfg s s' o := by
  have mine : item ∈ s.undispatched := undispatched ▸ List.mem_cons_self
  obtain ⟨member, begun⟩ :=
    station_of_dispatch ledger before (.inr ⟨item, mine, rfl⟩) picked workers
  have line : s.station.line = item.jobId :: s'.station.line := by
    rw [State.station, undispatched]
    rfl
  refine .inr ?_
  rw [told, begun]
  exact .advance line member (ledger.idle before free)

private theorem Change.stationed (noShadow : NoShadow cfg P) (before : Visit cfg P tr s)
    (whole : splitsBatch cfg s₀ e = false) (change : Change cfg s₀ e s s' o) :
    SeenAs cfg s s' o := by
  have ledger := books noShadow before
  cases change with
  | jobQueued _ room => exact .arrival room rfl rfl rfl (by simp)
  | bridgeQueued _ room => exact .arrival room rfl rfl rfl (by simp)
  | streamQueued _ _ room => exact .arrival room rfl rfl rfl (by simp)
  | @jobTurnedAway s r j _ _ _ full told =>
    rcases told with rfl | rfl <;> exact .refusal (storeItem cfg s r j) full rfl (by simp)
  | batchRefused _ _ split =>
    rw [whole] at split
    cases split
  | @requestRefused _ item _ full => exact .refusal item full rfl (by simp)
  | @answered _ a answer =>
    refine .silent rfl rfl ?_
    cases a <;> simp [Obs.isAnswer] at answer ⊢
  | @cloneStart j wavPath w event fresh picked =>
    exact .direct (r := .computeLatents ⟨j, wavPath, s.nextQueue⟩) ledger before fresh.2 picked rfl
      rfl rfl
  | drainWaits hand =>
    exact .silent (by rw [hand.undispatched]; simp [State.undispatched, DrainPc.undispatched?]) rfl
      (by simp)
  | drainRaises hand =>
    exact .silent (by rw [hand.undispatched]; simp [State.undispatched, DrainPc.undispatched?]) rfl
      (by simp)
  | @drainDispatches s item rest w event takes hand same free picked =>
    have kind := undispatched_proper before (hand.undispatched ▸ List.mem_cons_self)
    refine .admission ledger before picked free rfl ?_ ?_
    · rw [hand.undispatched]
      rfl
    · cases kind <;> rfl
  | drainPut loop =>
    exact .silent (by simp [State.undispatched, DrainPc.undispatched?, loop]) rfl (by simp)
  | handedOver loop =>
    exact .silent (by simp [State.undispatched, DrainPc.undispatched?, loop]) rfl (by simp)
  | @collected j w r cb t t0 outcome result workers drain i next jobs futures statuses _ task _
      slot =>
    have named : r.jobId = j := ((placed before).serves j _ task).named
    subst named
    have owned : held s.tasks r.jobId = some w := by simp [held, task, Task.holds, CollectPc.holds]
    refine .departure ledger before owned slot rfl ?_
    cases i <;> simp [Function.comp_def]
  | @leave j r w pc next frame workers drain i task left slot =>
    have owned : held s.tasks j = some w := by simp [held, task, Task.holds, left.holds.1]
    refine .departure ledger before owned slot rfl ?_
    cases i <;> simp [Function.comp_def]
  | @cloneDone j w r outcome workers drain i _ task slot =>
    have owned : held s.tasks j = some w := by simp [held, task, Task.holds, ClonePc.holds]
    refine .departure ledger before owned slot rfl ?_
    cases i <;> simp
  | _ => exact .silent rfl rfl (by simp [marks_eq_map, Function.comp_def])

private theorem SeenAs.run (h : SeenAs cfg s s' o) :
    Run (Station.station (stationRules cfg)) anyStep s.station (o.filterMap Obs.station?)
      s'.station := by
  rcases h with ⟨same, told⟩ | moves
  · rw [same, told]
    exact .refl
  · exact moves.run

/-- The loop of `submit_batch`: arrivals, and at most one customer turned away, at the end. -/
private theorem submitLoop_run {rest : List (Resolved × JobId)} {created all : List JobId}
    {raiseAt : Option Nat} {answer : Except Exc Unit}
    (run : submitLoop cfg s created rest raiseAt = ((s', o), all, answer)) :
    Run (Station.station (stationRules cfg)) anyStep s.station (o.filterMap Obs.station?)
      s'.station := by
  induction rest generalizing s created raiseAt o with
  | nil =>
    simp only [submitLoop, Prod.mk.injEq] at run
    obtain ⟨⟨rfl, rfl⟩, -, -⟩ := run
    exact .refl
  | cons p rest ih =>
    obtain ⟨r, j⟩ := p
    cases submitLoop_cases run with
    | raised => exact SeenAs.run (.silent rfl rfl (by simp))
    | enqueued room tail =>
      rw [List.filterMap_append]
      have first : SeenAs cfg s
          { makeQueue (createJob s r j) with queue := s.queue ++ [storeItem cfg s r j] }
          [.created j, .accepted (storeItem cfg s r j)] := .arrival room rfl rfl rfl (by simp)
      exact first.run.trans (ih tail)
    | full full =>
      exact SeenAs.run (.refusal (storeItem cfg s r j) full rfl
        (by simp [Function.comp_def]))

private theorem submitBatch_run {items : List BatchItem} {speakers : SpeakerView} {ids : List JobId}
    {raiseAt : Option Nat} {answer : Except Exc Unit}
    (run : submitBatch cfg s items speakers ids raiseAt = ((s', o), answer)) :
    Run (Station.station (stationRules cfg)) anyStep s.station (o.filterMap Obs.station?)
      s'.station := by
  unfold submitBatch at run
  split at run
  · simp only [Prod.mk.injEq] at run
    obtain ⟨⟨rfl, rfl⟩, -⟩ := run
    exact .refl
  · rename_i rs valid
    cases loop : submitLoop cfg s [] (rs.zip ids) raiseAt with
    | mk effect result =>
      obtain ⟨s₁, o₁⟩ := effect
      obtain ⟨all, answer'⟩ := result
      rw [loop] at run
      simp only [Prod.mk.injEq] at run
      obtain ⟨⟨rfl, rfl⟩, -⟩ := run
      simpa using submitLoop_run loop

/-- A step of the server is a run of the station. -/
private theorem step_station (noShadow : NoShadow cfg P) (before : Visit cfg P tr s) (meets : P s e)
    (taken : step cfg s e = some (s', o)) :
    Run (Station.station (stationRules cfg)) anyStep s.station (o.filterMap Obs.station?)
      s'.station := by
  by_cases split : splitsBatch cfg s e = true
  · cases e with
    | submitBatch items speakers ids raiseAt =>
      simp only [step] at taken
      split_ifs at taken
      cases run : submitBatch cfg s items speakers ids raiseAt with
      | mk effect answer =>
        rw [run] at taken
        obtain rfl := Option.some.inj taken
        exact submitBatch_run run
    | _ => cases split
  · have whole : splitsBatch cfg s e = false := by simpa using split
    have seen : ∀ {o : List Obs} {a : State}, Chain (Change cfg s e) s o a →
        Run (Station.station (stationRules cfg)) anyStep s.station (o.filterMap Obs.station?)
          a.station := by
      intro o a chain
      induction chain with
      | refl => exact .refl
      | tail earlier change ih =>
        rw [List.filterMap_append]
        have visit := before.trans (earlier.mono fun _ _ _ change => ⟨s, e, meets, change⟩)
        exact ih.trans (change.stationed noShadow visit whole).run
    exact seen (step_changes taken)

/-- With distinct worker ids the queue and the dispatcher are a station with one line. -/
theorem server_station (noShadow : NoShadow cfg P) :
    Simulation (server cfg) P (Station.station (stationRules cfg)) anyStep State.station
      Obs.station? where
  init := by
    have nobody : ∀ i, servingAt (State.init cfg).workers i = [] ∧
        servedAt (State.init cfg).workers i = 0 := by
      intro i
      unfold servingAt servedAt
      split
      · rename_i w found
        obtain ⟨-, total, jobs⟩ := start_idle (List.mem_of_getElem? found)
        exact ⟨by rw [jobs]; rfl, total⟩
      · exact ⟨rfl, rfl⟩
    have serving : servingAt (State.init cfg).workers = fun _ => [] := funext fun i => (nobody i).1
    have served : servedAt (State.init cfg).workers = fun _ => 0 := funext fun i => (nobody i).2
    change (State.init cfg).station = .empty
    rw [State.station, serving, served]
    rfl
  step := fun before meets taken => step_station noShadow (visit_of_reach before) meets taken

end XttsServer.Model
