import XttsServer.Runs.Slots

/-!
The counters of the workers against the ledger of dispatches and releases, and
the ownership of the slots that are taken.
-/

set_option autoImplicit false
set_option relaxedAutoImplicit false

namespace XttsServer.Model

open XttsServer.Foundations XttsServer.Foundations.Transition XttsServer.Foundations.Ledger

variable {cfg : Config} {P : State → Event → Prop} {s s' s₀ : State} {e : Event}
  {tr o : List Obs}

/-! ### The ids of the workers -/

/-- The id and the GPU of a handle, which never change. -/
def WorkerHandle.place (w : WorkerHandle) : String × Nat := (w.workerId, w.gpuIndex)

private theorem places_modify {g : WorkerHandle → WorkerHandle} (kept : ∀ w, (g w).place = w.place)
    (workers : List WorkerHandle) (i : WorkerRef) :
    (workers.modify i g).map WorkerHandle.place = workers.map WorkerHandle.place := by
  apply List.ext_getElem?
  intro n
  rw [List.getElem?_map, List.getElem?_map, List.getElem?_modify]
  cases workers[n]? with
  | none => rfl
  | some w =>
    by_cases here : i = n <;> simp [here, kept]

private theorem State.releases.places {w : WorkerRef} {ms : ℚ} {j : JobId}
    {workers : List WorkerHandle}
    {drain : DrainPc} {i : Option WorkerRef} (h : s.releases w ms j workers drain i) :
    workers.map WorkerHandle.place = s.workers.map WorkerHandle.place := by
  rcases h.cases with ⟨-, rfl, -⟩ | ⟨handle, -, -, rfl, -⟩
  · rfl
  · unfold release
    split
    · apply places_modify
      exact fun _ => rfl
    · rfl

theorem State.releases.length {w : WorkerRef} {ms : ℚ} {j : JobId} {workers : List WorkerHandle}
    {drain : DrainPc} {i : Option WorkerRef} (h : s.releases w ms j workers drain i) :
    workers.length = s.workers.length := by simpa using congrArg List.length h.places

private theorem SlotChange.places (h : SlotChange s₀ s s' e o) :
    s'.workers.map WorkerHandle.place = s.workers.map WorkerHandle.place := by
  cases h with
  | same workers => rw [workers]
  | takes _ workers =>
    rw [workers]
    apply places_modify
    exact fun _ => rfl
  | gives _ slot => exact slot.places
  | drops _ workers => rw [workers]

private theorem ids_of_places {workers workers' : List WorkerHandle}
    (places : workers'.map WorkerHandle.place = workers.map WorkerHandle.place) :
    workers'.map WorkerHandle.workerId = workers.map WorkerHandle.workerId := by
  simpa [Function.comp_def, WorkerHandle.place] using congrArg (List.map Prod.fst) places

private theorem SlotChange.ids (h : SlotChange s₀ s s' e o) :
    s'.workers.map WorkerHandle.workerId = s.workers.map WorkerHandle.workerId :=
  ids_of_places h.places

theorem places_fixed (h : Visit cfg P tr s) : s.workers.map WorkerHandle.place =
    (start cfg.cudaOk cfg.settings.workersPerGpuList).map WorkerHandle.place := by
  induction h using visit_induction with
  | start => rfl
  | change before ih _ change => rw [(change.slots before).places, ih]

theorem ids_fixed (h : Visit cfg P tr s) : s.workers.map WorkerHandle.workerId =
    (start cfg.cudaOk cfg.settings.workersPerGpuList).map WorkerHandle.workerId :=
  ids_of_places (places_fixed h)

theorem workers_ne_nil (h : Visit cfg P tr s) : s.workers ≠ [] := by
  intro none
  have fixed := ids_fixed h
  rw [none, List.map_nil, eq_comm, List.map_eq_nil_iff] at fixed
  exact start_ne_nil cfg.workers_valid fixed

theorem gpus_fixed (h : Visit cfg P tr s) : s.workers.map WorkerHandle.gpuIndex =
    (start cfg.cudaOk cfg.settings.workersPerGpuList).map WorkerHandle.gpuIndex := by
  simpa [Function.comp_def, WorkerHandle.place] using congrArg (List.map Prod.snd) (places_fixed h)

/-- A release in the name of the worker reaches the worker itself. -/
def Unshadowed (workers : List WorkerHandle) (w : WorkerRef) : Prop :=
  ∃ handle, workers[w]? = some handle ∧ releaseTarget workers handle.workerId = some w

private theorem releaseTarget_congr {workers workers' : List WorkerHandle}
    (ids : workers'.map WorkerHandle.workerId = workers.map WorkerHandle.workerId) (id : String) :
    releaseTarget workers' id = releaseTarget workers id := by
  have by_ids : ∀ l : List WorkerHandle, (l.findIdx? fun w => w.workerId = id) =
      (l.map WorkerHandle.workerId).findIdx? fun i => i = id := fun l => by
    rw [List.findIdx?_map]
    rfl
  rw [releaseTarget, releaseTarget, by_ids, by_ids, ids]

private theorem Unshadowed.congr {workers workers' : List WorkerHandle} {w : WorkerRef}
    (ids : workers'.map WorkerHandle.workerId = workers.map WorkerHandle.workerId)
    (h : Unshadowed workers w) : Unshadowed workers' w := by
  obtain ⟨handle, found, target⟩ := h
  have same : (workers'.map WorkerHandle.workerId)[w]? = some handle.workerId := by
    rw [ids, List.getElem?_map, found]
    rfl
  rw [List.getElem?_map] at same
  obtain ⟨handle', found', id⟩ := Option.map_eq_some_iff.mp same
  exact ⟨handle', found', by rw [id, releaseTarget_congr ids, target]⟩

private theorem unshadowed_of_distinct (h : Visit cfg P tr s)
    (distinct : DistinctIds (start cfg.cudaOk cfg.settings.workersPerGpuList)) {w : WorkerRef}
    (range : w < s.workers.length) : Unshadowed s.workers w := by
  have ids := ids_fixed h
  have here : DistinctIds s.workers := by
    unfold DistinctIds
    rw [ids]
    exact distinct
  have found := List.getElem?_eq_getElem range
  refine ⟨_, found, releaseTarget_of_distinct here found ?_⟩
  have named : (s.workers[w]).workerId ∈ s.workers.map WorkerHandle.workerId :=
    List.mem_map_of_mem (List.getElem_mem range)
  rw [ids] at named
  obtain ⟨handle, member, same⟩ := List.mem_map.mp named
  exact same ▸ start_workerId_ne_empty member

theorem State.releases.unshadowed {w : WorkerRef} {ms : ℚ} {j : JobId}
    {workers : List WorkerHandle} {drain : DrainPc} {i : Option WorkerRef}
    (h : s.releases w ms j workers drain i) (own : Unshadowed s.workers w) :
    i = some w ∧ workers = s.workers.modify w fun handle => handle.release ms j := by
  obtain ⟨handle, found, target⟩ := own
  rcases h.cases with ⟨unnamed, -⟩ | ⟨handle', found', -, rfl, -, rfl⟩
  · rw [unnamed handle found, releaseTarget, if_pos rfl] at target
    cases target
  · obtain rfl : handle' = handle := Option.some.inj (found'.symm.trans found)
    exact ⟨target, by rw [release, target]⟩

/-! ### The books -/

/-- Every dispatch of the runs goes to a worker that releases can reach. -/
def NoShadow (cfg : Config) (P : State → Event → Prop) : Prop :=
  ∀ tr s₀ e s s' o r w, Visit cfg P tr s → P s₀ e → Change cfg s₀ e s s' o →
    .dispatched r w ∈ o → Unshadowed s.workers w

private theorem pickWorker_range {workers : List WorkerHandle} {w : WorkerRef}
    (h : pickWorker workers = some w) : w < workers.length := by
  obtain ⟨handle, found, -⟩ := pickWorker_eq_some h
  exact (List.getElem?_eq_some_iff.mp found).1

theorem Change.dispatches (change : Change cfg s₀ e s s' o) {r : Request} {w : WorkerRef}
    (told : .dispatched r w ∈ o) : pickWorker s.workers = some w ∧ s.workers = s₀.workers ∧
      ((e = .resumeDrain ∧ s₀.takesItem = true ∧ allBusy s.workers = false ∧
          ∃ item, .drained item w ∈ o ∧ item.request = r) ∨
        ∃ j wavPath q, e = .computeLatents j wavPath ∧ r = .computeLatents ⟨j, wavPath, q⟩ ∧
          r ∈ requests o ∧ s = s₀) := by
  cases change with
  | @cloneStart j wavPath w' event fresh picked =>
    obtain ⟨rfl, rfl⟩ : r = .computeLatents ⟨j, wavPath, s.nextQueue⟩ ∧ w = w' := by
      simpa using told
    exact ⟨picked, rfl, .inr ⟨j, wavPath, s.nextQueue, event, rfl, by simp, rfl⟩⟩
  | @drainDispatches s item rest w' event takes hand same free picked =>
    obtain ⟨rfl, rfl⟩ : r = item.request ∧ w = w' := by simpa using told
    exact ⟨picked, same, .inl ⟨event, takes, free, item, by simp, rfl⟩⟩
  | jobTurnedAway _ _ told' => rcases told' with rfl | rfl <;> simp at told
  | @answered _ a answer => cases a <;> simp [Obs.isAnswer] at answer told
  | _ => simp [marks_eq_map] at told

theorem dispatched_range (h : Visit cfg P tr s) {r : Request} {w : WorkerRef}
    (told : .dispatched r w ∈ tr) : w < s.workers.length := by
  obtain ⟨before, a, b, o, _, there, ⟨s₀, e, _, change⟩, told', -⟩ := h.exists_change told
  have range := pickWorker_range (change.dispatches told').1
  have fixed : a.workers.length = s.workers.length := by
    simpa using congrArg List.length ((ids_fixed there).trans (ids_fixed h).symm)
  exact fixed ▸ range

theorem noShadow_of_distinct
    (distinct : DistinctIds (start cfg.cudaOk cfg.settings.workersPerGpuList)) :
      NoShadow cfg P := by
  intro tr s₀ e s s' o r w before _ change told
  exact unshadowed_of_distinct before distinct (pickWorker_range (change.dispatches told).1)

/-! ### Shadowed workers -/

/-- An earlier worker has the worker's id, so that releases never reach it. -/
def shadowed (workers : List WorkerHandle) (w : WorkerRef) : Bool :=
  match workers[w]? with
  | some handle => releaseTarget workers handle.workerId ≠ some w
  | none => true

def picksShadowed (workers : List WorkerHandle) : Bool :=
  match pickWorker workers with
  | some w => shadowed workers w
  | none => false

def dispatchesShadowed (s : State) : Event → Bool
  | .resumeDrain => s.takesItem && !allBusy s.workers && picksShadowed s.workers
  | .computeLatents _ _ => picksShadowed s.workers
  | _ => false

private theorem unshadowed_of_pick {workers : List WorkerHandle} {w : WorkerRef}
    (picked : pickWorker workers = some w) (fine : picksShadowed workers = false) :
    Unshadowed workers w := by
  obtain ⟨handle, found, -⟩ := pickWorker_eq_some picked
  simp only [picksShadowed, picked, shadowed, found, decide_eq_false_iff_not, not_not] at fine
  exact ⟨handle, found, fine⟩

theorem noShadow_of_steps (avoided : ∀ s e, P s e → dispatchesShadowed s e = false) :
    NoShadow cfg P := by
  intro tr s₀ e s s' o r w _ meets change told
  have fine := avoided s₀ e meets
  obtain ⟨picked, same, ⟨rfl, takes, free, -⟩ | ⟨j, wavPath, q, rfl, -, -, rfl⟩⟩ :=
    change.dispatches told
  · refine unshadowed_of_pick picked ?_
    simpa [dispatchesShadowed, takes, ← same, free] using fine
  · exact unshadowed_of_pick picked fine

/-! ### Dispatched requests -/

theorem dispatched_cases (h : Visit cfg P tr s) {r : Request} {w : WorkerRef}
    (told : .dispatched r w ∈ tr) :
    (∃ item, (item, w) ∈ drained tr ∧ item.request = r) ∨
      (∃ c, r = .computeLatents c) ∧ r ∈ requests tr := by
  induction h using visit_induction with
  | start => cases told
  | @change s₀ e s s' tr o before ih meets change =>
    simp only [drained, requests, List.filterMap_append, List.mem_append] at ih ⊢
    rcases List.mem_append.mp told with old | new
    · rcases ih old with ⟨item, member, same⟩ | ⟨clone, member⟩
      · exact .inl ⟨item, .inl member, same⟩
      · exact .inr ⟨clone, .inl member⟩
    · rcases (change.dispatches new).2.2 with ⟨-, -, -, item, member, same⟩ |
        ⟨j, wavPath, q, -, same, member, -⟩
      · exact .inl ⟨item, .inr (List.mem_filterMap.mpr ⟨_, member, rfl⟩), same⟩
      · exact .inr ⟨⟨_, same⟩, .inr member⟩

theorem mem_taken {j : JobId} {w : WorkerRef} :
    (j, w) ∈ taken (slotLog tr) ↔ ∃ r, .dispatched r w ∈ tr ∧ r.jobId = j := by
  simp only [taken, slotLog, List.mem_filterMap]
  constructor
  · rintro ⟨x, ⟨a, member, entry⟩, key⟩
    cases a <;> simp at entry
    · subst entry
      simp only [Option.some.injEq, Prod.mk.injEq] at key
      obtain ⟨rfl, rfl⟩ := key
      exact ⟨_, member, rfl⟩
    · subst entry
      cases key
  · rintro ⟨r, member, rfl⟩
    exact ⟨.take r.jobId w, ⟨_, member, rfl⟩, rfl⟩

theorem mem_given {j : JobId} {w : WorkerRef} :
    (j, w) ∈ given (slotLog tr) ↔ .released j w ∈ tr := by
  simp only [given, slotLog, List.mem_filterMap]
  constructor
  · rintro ⟨x, ⟨a, member, entry⟩, key⟩
    cases a <;> simp at entry
    · subst entry
      cases key
    · subst entry
      simp only [Option.some.injEq, Prod.mk.injEq] at key
      obtain ⟨rfl, rfl⟩ := key
      exact member
  · intro member
    exact ⟨.give j w, ⟨_, member, rfl⟩, rfl⟩

theorem dispatched_request (h : Visit cfg P tr s) {r : Request} {w : WorkerRef}
    (told : .dispatched r w ∈ tr) : r ∈ requests tr := by
  rcases dispatched_cases h told with ⟨item, member, rfl⟩ | ⟨-, member⟩
  · apply request_mem_requests
    rw [flow h]
    exact List.mem_append_left _ (List.mem_map_of_mem member)
  · exact member

theorem not_taken (h : Visit cfg P tr s) {r : Request}
    (new : r.jobId ∉ s.used ∨ ∃ item ∈ s.undispatched, item.request = r) :
    r.jobId ∉ (taken (slotLog tr)).map Prod.fst := by
  intro member
  obtain ⟨⟨j, w⟩, was_taken, same⟩ := List.mem_map.mp member
  obtain ⟨r', told, named⟩ := mem_taken.mp was_taken
  have id : r'.jobId = r.jobId := named.trans same
  rcases new with fresh | ⟨item, waiting, rfl⟩
  · exact fresh (id ▸ (registered h).drawn _ (dispatched_request h told))
  · have accept := undispatched_accepted h waiting
    rcases dispatched_cases h told with ⟨item', old, rfl⟩ | ⟨⟨c, rfl⟩, known⟩
    · have all := accepted_nodup h
      rw [flow h, List.map_append, List.nodup_append] at all
      exact all.2.2 _ (List.mem_map_of_mem (List.mem_map_of_mem old)) _
        (List.mem_map_of_mem waiting) id
    · have one := request_of_id h known (request_mem_requests accept) id
      have kind := proper_of_accepted h accept
      cases kind <;> cases one

/-- The counters of the handles are those of a sound ledger, in which every owner's slot is
outstanding. -/
structure Books (log : List (Entry JobId WorkerRef)) (s : State) : Prop where
  sound : Sound log
  owed : ∀ j w, Owns s j w → (j, w) ∈ outstanding log
  own : ∀ j w, Owns s j w → Unshadowed s.workers w
  keys : ∀ i handle, s.workers[i]? = some handle →
    handle.activeJobs.keys = atPlace i (outstanding log)
  active : ∀ i handle, s.workers[i]? = some handle →
    handle.activeRequests = (atPlace i (outstanding log)).length
  total : ∀ i handle, s.workers[i]? = some handle →
    handle.totalRequests = (atPlace i (given log)).length

theorem used_uuid (h : Visit cfg P tr s) : ∀ j ∈ s.used, isUuid j = true := by
  induction h using visit_induction with
  | start => simp [State.init]
  | change before ih _ change =>
    cases change with
    | drawn fresh | jobQueued fresh | jobTurnedAway fresh | jobRaised fresh | batchRefused fresh
    | bridgeQueued fresh | streamQueued fresh | requestRefused fresh | cloneStart _ fresh
    | cloneRaises fresh =>
      intro k hk
      rcases List.mem_cons.mp hk with rfl | old
      · exact fresh.1
      · exact ih k old
    | _ => exact ih

theorem held_named (h : Visit cfg P tr s) {j : JobId} {w : WorkerRef}
    (owned : held s.tasks j = some w) : j ∈ s.used := by
  obtain ⟨t, task, -⟩ := Option.bind_eq_some_iff.mp owned
  exact used_of_task h (placed h) task

theorem owns_named (h : Visit cfg P tr s) {j : JobId} {w : WorkerRef} (owner : Owns s j w) :
    j ∈ (requests tr).map Request.jobId := by
  rcases owner with loop | task
  · obtain ⟨p, here, same⟩ := Option.map_eq_some_iff.mp loop
    have mine : p.1 ∈ s.items := by
      rw [s.items_eq, here]
      simp
    rw [← (Prod.mk.inj same).1]
    exact List.mem_map_of_mem (request_mem_requests (items_accepted h mine))
  · obtain ⟨t, task, -⟩ := Option.bind_eq_some_iff.mp task
    obtain ⟨known, named, -, -⟩ := (placed h).serves j t task
    exact List.mem_map.mpr ⟨_, known, named⟩

theorem ne_empty_of_used (h : Visit cfg P tr s) {j : JobId} (used : j ∈ s.used) : j ≠ "" := by
  rintro rfl
  have uuid := used_uuid h _ used
  simp [isUuid] at uuid

theorem getElem?_modify_some {workers : List WorkerHandle} {w i : WorkerRef}
    {g : WorkerHandle → WorkerHandle} {handle : WorkerHandle}
    (found : (workers.modify w g)[i]? = some handle) :
    ∃ old, workers[i]? = some old ∧ handle = if w = i then g old else old := by
  rw [List.getElem?_modify] at found
  obtain ⟨old, there, same⟩ := Option.map_eq_some_iff.mp found
  exact ⟨old, there, same.symm⟩

section Kept

variable {log : List (Entry JobId WorkerRef)} {j : JobId} {w : WorkerRef}

private theorem Books.take (h : Books log s) {now : ℚ} (new : j ∉ (taken log).map Prod.fst)
    (own : Unshadowed s.workers w)
    (workers : s'.workers = s.workers.modify w fun handle => handle.acquire j now)
    (ids : s'.workers.map WorkerHandle.workerId = s.workers.map WorkerHandle.workerId)
    (owns : ∀ k v, Owns s' k v ↔ Owns s k v ∨ (k, v) = (j, w)) :
    Books (log ++ [.take j w]) s' := by
  have absent : j ∉ atPlace w (outstanding log) := fun member =>
    new (List.mem_map.mpr ⟨_, h.sound.outstanding_sublist.subset (mem_atPlace.mp member), rfl⟩)
  refine ⟨h.sound.take new, ?_, ?_, ?_, ?_, ?_⟩
  · intro k v owner
    rw [outstanding_take, List.mem_append, List.mem_singleton]
    exact ((owns k v).mp owner).imp (h.owed k v) id
  · intro k v owner
    rcases (owns k v).mp owner with old | same
    · exact (h.own k v old).congr ids
    · exact (Prod.mk.inj same).2 ▸ own.congr ids
  · intro i handle found
    rw [workers] at found
    obtain ⟨old, there, rfl⟩ := getElem?_modify_some found
    rw [outstanding_take, atPlace_concat, ← h.keys i old there]
    split_ifs with here
    · subst here
      rw [← h.keys w old there] at absent
      exact Dict.keys_set_of_notMem _ _ _ absent
    · rfl
  · intro i handle found
    rw [workers] at found
    obtain ⟨old, there, rfl⟩ := getElem?_modify_some found
    rw [outstanding_take, atPlace_concat]
    dsimp only
    split_ifs with here
    · rw [List.length_append, List.length_singleton, ← h.active i old there]
      rfl
    · exact h.active i old there
  · intro i handle found
    rw [workers] at found
    obtain ⟨old, there, rfl⟩ := getElem?_modify_some found
    rw [given_take, ← h.total i old there]
    split_ifs <;> rfl

private theorem Books.give (h : Books log s) {ms : ℚ} (owned : Owns s j w) (named : j ≠ "")
    (workers : s'.workers = s.workers.modify w fun handle => handle.release ms j)
    (ids : s'.workers.map WorkerHandle.workerId = s.workers.map WorkerHandle.workerId)
    (owns : ∀ k v, Owns s' k v ↔ Owns s k v ∧ k ≠ j) :
    Books (log ++ [.give j w]) s' := by
  have owed := h.owed j w owned
  refine ⟨h.sound.give owed, ?_, ?_, ?_, ?_, ?_⟩
  · intro k v owner
    obtain ⟨old, other⟩ := (owns k v).mp owner
    rw [outstanding_give, h.sound.mem_outstanding_erase owed]
    exact ⟨h.owed k v old, other⟩
  · intro k v owner
    exact (h.own k v ((owns k v).mp owner).1).congr ids
  · intro i handle found
    rw [workers] at found
    obtain ⟨old, there, rfl⟩ := getElem?_modify_some found
    rw [outstanding_give, h.sound.atPlace_give owed, ← h.keys i old there]
    split_ifs with here
    · rw [WorkerHandle.release, if_pos named]
      exact Dict.keys_erase _ _
    · rfl
  · intro i handle found
    rw [workers] at found
    obtain ⟨old, there, rfl⟩ := getElem?_modify_some found
    rw [outstanding_give, h.sound.atPlace_give owed]
    split_ifs with here
    · subst here
      rw [List.length_erase_of_mem (mem_atPlace.mpr owed), ← h.active w old there]
      rfl
    · exact h.active i old there
  · intro i handle found
    rw [workers] at found
    obtain ⟨old, there, rfl⟩ := getElem?_modify_some found
    rw [given_give, atPlace_concat]
    dsimp only
    split_ifs with here
    · rw [List.length_append, List.length_singleton, ← h.total i old there]
      rfl
    · exact h.total i old there

private theorem Books.fewer (h : Books log s) (workers : s'.workers = s.workers)
    (owns : ∀ k v, Owns s' k v → Owns s k v) : Books log s' := by
  refine ⟨h.sound, fun k v owner => h.owed k v (owns k v owner), fun k v owner => ?_, ?_, ?_, ?_⟩
  · rw [workers]
    exact h.own k v (owns k v owner)
  · rw [workers]
    exact h.keys
  · rw [workers]
    exact h.active
  · rw [workers]
    exact h.total

end Kept

private theorem books_start (cfg : Config) : Books [] (State.init cfg) := by
  have nobody : ∀ k v, ¬ Owns (State.init cfg) k v := by
    rintro k v (loop | task)
    · cases loop
    · cases task
  have idle : ∀ (i : WorkerRef) (handle : WorkerHandle), (State.init cfg).workers[i]? =
      some handle → handle.activeRequests = 0 ∧ handle.totalRequests = 0 ∧
        handle.activeJobs = .empty :=
    fun i handle found => start_idle (List.mem_of_getElem? found)
  refine ⟨.nil, fun k v owner => absurd owner (nobody k v),
    fun k v owner => absurd owner (nobody k v), fun i handle found => ?_, fun i handle found => ?_,
    fun i handle found => ?_⟩
  · rw [(idle i handle found).2.2]
    rfl
  · exact (idle i handle found).1
  · exact (idle i handle found).2.1

theorem books (noShadow : NoShadow cfg P) (h : Visit cfg P tr s) : Books (slotLog tr) s := by
  induction h using visit_induction with
  | start => exact books_start cfg
  | @change s₀ e s s' tr o before ih meets change =>
    have slots := change.slots before
    have ids := slots.ids
    have split : slotLog (tr ++ o) = slotLog tr ++ slotLog o := List.filterMap_append
    rw [split]
    cases slots with
    | same workers log owns =>
      rw [log, List.append_nil]
      exact ih.fewer workers fun k v => (owns k v).mp
    | takes told workers log free new owns =>
      rw [log]
      exact ih.take (not_taken before new) (noShadow _ _ _ _ _ _ _ _ before meets change told)
        workers ids owns
    | @gives j w ms i owned slot log owns =>
      obtain ⟨rfl, workers⟩ := slot.unshadowed (ih.own j w (.inr owned))
      rw [log]
      exact ih.give (.inr owned) (ne_empty_of_used before (held_named before owned))
        workers ids owns
    | drops _ workers log owns =>
      rw [log, List.append_nil]
      exact ih.fewer workers fun k v owner => ((owns k v).mp owner).1

/-! ### Slots that keep their owner -/

/-- A stream handler is cancelled after its enqueue and before it has entered its `try`. -/
def cancelsUnstarted (s : State) : Event → Bool
  | .cancelStream j =>
      match s.tasks j with
      | some (.stream _ .awaiting) => true
      | some (.stream _ (.assigned _)) => true
      | _ => false
  | _ => false

/-- What is outstanding has an owner, as long as no handler is cancelled too early. -/
theorem outstanding_owned (noShadow : NoShadow cfg P)
    (started : ∀ s e, P s e → cancelsUnstarted s e = false) (h : Visit cfg P tr s) {j : JobId}
    {w : WorkerRef} (owed : (j, w) ∈ outstanding (slotLog tr)) : Owns s j w := by
  induction h using visit_induction with
  | start => cases owed
  | @change s₀ e s s' tr o before ih meets change =>
    have split : slotLog (tr ++ o) = slotLog tr ++ slotLog o := List.filterMap_append
    have ledger := books noShadow before
    rw [split] at owed
    cases change.slots before with
    | same _ log owns =>
      rw [log, List.append_nil] at owed
      exact (owns j w).mpr (ih owed)
    | takes _ _ log _ _ owns =>
      rw [log, outstanding_take, List.mem_append, List.mem_singleton] at owed
      exact (owns j w).mpr (owed.imp ih id)
    | @gives k v ms i owned slot log owns =>
      obtain ⟨rfl, -⟩ := slot.unshadowed (ledger.own k v (.inr owned))
      rw [log] at owed
      change (j, w) ∈ outstanding (slotLog tr ++ [Entry.give k v]) at owed
      rw [outstanding_give,
        ledger.sound.mem_outstanding_erase (ledger.owed k v (.inr owned))] at owed
      exact (owns j w).mpr ⟨ih owed.1, owed.2⟩
    | @drops k v owned _ _ _ cause =>
      rcases cause with ⟨r, rfl, rfl, task⟩ | ⟨item, loop, rfl, dead⟩
      · have fine := started _ _ meets
        simp [cancelsUnstarted, task] at fine
      · have alive : Placed cfg False tr s := placed_of (fun s j r allowed task => by
          have fine := started _ _ allowed
          simp [cancelsUnstarted, task] at fine) before
        have mine : item ∈ s.items := by simp [State.items, loop, DrainPc.item?]
        have unclaimed := alive.unclaimed item mine
        unfold Unclaimed at unclaimed
        rw [dead] at unclaimed
        simp at unclaimed

end XttsServer.Model
