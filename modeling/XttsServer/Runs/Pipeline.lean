import XttsServer.Runs.Batches

/-!
Where the request of a job is, the worker that it stands on included, against the
record of the job.
-/

set_option autoImplicit false
set_option relaxedAutoImplicit false

namespace XttsServer.Model

open XttsServer.Foundations XttsServer.Foundations.Transition XttsServer.Foundations.Ledger

variable {cfg : Config} {P : State → Event → Prop} {s s' s₀ : State} {e : Event}
  {tr o : List Obs} {j : JobId}

/-- The request of the job is in the asyncio queue, or held by the drain loop. -/
def State.waits (s : State) (j : JobId) : Bool := s.undispatched.any fun item => item.jobId = j

/-- The job stands in the `active_jobs` of a worker. -/
def State.active (s : State) (j : JobId) : Bool := s.workers.any fun w => j ∈ w.activeJobs.keys

private theorem waits_iff : s.waits j = true ↔ ∃ item ∈ s.undispatched, item.jobId = j := by
  simp [State.waits]

theorem active_iff : s.active j = true ↔
    ∃ (w : WorkerRef) (handle : WorkerHandle), s.workers[w]? = some handle ∧ j ∈
      handle.activeJobs.keys := by
  simp only [State.active, List.any_eq_true, decide_eq_true_eq,
    List.mem_iff_getElem? (l := s.workers)]
  constructor
  · rintro ⟨handle, ⟨w, found⟩, member⟩
    exact ⟨w, handle, found, member⟩
  · rintro ⟨w, handle, found, member⟩
    exact ⟨handle, ⟨w, found⟩, member⟩

/-! ### The requests of jobs -/

private theorem keys_failAll (store : JobStore) (now : ℚ) (error : String) (ids : List JobId) :
    (store.failAll now error ids).keys = store.keys := by
  induction ids generalizing store with
  | nil => rfl
  | cons k ids ih =>
    rw [JobStore.failAll, List.foldl_cons]
    exact (ih _).trans (JobStore.keys_markFailed _ _ _ _)

private theorem onComplete_keys (cb : OnComplete) (w : WorkerRef) (result : SynthesisResult)
    (ms : ℚ) :
    (onComplete s cb w result ms).1.1.jobs.keys = s.jobs.keys := by
  have running : ∀ k, (markRunning s k w ms).1.jobs.keys = s.jobs.keys := by
    intro k
    unfold markRunning
    split
    · rfl
    · exact Dict.keys_modify _ _ _
  cases cb with
  | bridge => rfl
  | store k fmt dir =>
    simp only [onComplete]
    split
    · split_ifs
      · exact (JobStore.keys_markFailed _ _ _ _).trans (running k)
      · exact running k
    · exact running k

theorem Change.keys (change : Change cfg s₀ e s s' o) :
    s'.jobs.keys ⊆ s.jobs.keys ∨ ∃ k, s.canDraw k ∧ k ∈ s'.used ∧
      (∀ i ∈ s'.jobs.keys, i ∈ s.jobs.keys ∨ i = k) ∧
      ∀ r ∈ requests o, ∃ item ∈ accepted o, item.request = r ∧ item.stores = true := by
  have created : ∀ {r : Resolved} {k i : JobId},
      i ∈ (s.jobs.create s.now k r.text r.language r.speakerId).keys → i ∈ s.jobs.keys ∨ i = k :=
    fun there => (Dict.mem_keys_set _ _ _ _).mp there
  have subset_of_eq : ∀ {a b : List JobId}, a = b → a ⊆ b := by
    rintro a _ rfl
    exact List.Subset.refl a
  cases change with
  | @jobQueued _ r k fresh =>
    refine .inr ⟨k, fresh, List.mem_cons_self, fun i => created, fun r' known => ?_⟩
    obtain rfl : r' = (storeItem cfg s r k).request := by simpa [storeItem, jobItem] using known
    exact ⟨storeItem cfg s r k, by simp, rfl, rfl⟩
  | @jobTurnedAway _ r k _ _ fresh _ told =>
    refine .inr ⟨k, fresh, List.mem_cons_self, fun i there => ?_, ?_⟩
    · rw [JobStore.keys_markFailed] at there
      exact created there
    · rcases told with rfl | rfl <;> simp
  | @jobRaised _ r k fresh =>
    exact .inr ⟨k, fresh, List.mem_cons_self, fun i => created, by simp⟩
  | @batchRefused _ r k _ _ fresh =>
    refine .inr ⟨k, fresh, List.mem_cons_self, fun i there => created (r := r) ?_, ?_⟩
    · rwa [keys_failAll] at there
    · simp [Function.comp_def]
  | @collected k w r cb t t0 outcome result workers drain i next jobs futures statuses event task
      value slot call =>
    have same := @onComplete_keys { s with workers, drain } cb w result ((s.now - t0) * 1000)
    rw [call] at same
    exact .inl (subset_of_eq same)
  | saved | deleteAfterSend => exact .inl (subset_of_eq (Dict.keys_modify _ _ _))
  | @evict failures jobs files event pass =>
    refine .inl fun i there => ?_
    have kept := get?_evictExpired s.jobs s.files s.now cfg.settings.jobTtlSeconds failures i
    rw [pass] at kept
    obtain ⟨job, found⟩ := (Dict.mem_keys_iff _ _).mp there
    rw [kept, Option.filter_eq_some_iff] at found
    exact (Dict.mem_keys_iff _ _).mpr ⟨job, found.1⟩
  | _ => exact .inl fun _ there => there

/-- A request with the id of a record is the request of that job. -/
structure JobRequests (tr : List Obs) (s : State) : Prop where
  used : s.jobs.keys ⊆ s.used
  stored : ∀ r ∈ requests tr, r.jobId ∈ s.jobs.keys →
    ∃ item ∈ accepted tr, item.request = r ∧ item.stores = true

theorem jobRequests (h : Visit cfg P tr s) : JobRequests tr s := by
  induction h using visit_induction with
  | start => exact ⟨List.nil_subset _, by simp⟩
  | @change s₀ e s s' tr o before ih _ change =>
    obtain ⟨used, stored⟩ := ih
    have grows := change.grows.1
    have earlier : ∀ r ∈ requests tr, r.jobId ∈ s.jobs.keys →
        ∃ item ∈ accepted (tr ++ o), item.request = r ∧ item.stores = true := by
      intro r known there
      obtain ⟨item, member, rest⟩ := stored r known there
      exact ⟨item, by simp [accepted, member], rest⟩
    have split : requests (tr ++ o) = requests tr ++ requests o := List.filterMap_append
    rcases change.keys with old | ⟨k, fresh, drawn, new, own⟩
    · refine ⟨fun i there => grows (used (old there)), fun r known there => ?_⟩
      rw [split] at known
      rcases List.mem_append.mp known with before_known | just
      · exact earlier r before_known (old there)
      · rcases change.registers fun item => undispatched_proper before with
          none | ⟨r', one, unused, -⟩
        · rw [none] at just
          cases just
        · rw [one, List.mem_singleton] at just
          exact absurd (used (old there)) (just ▸ unused)
    · refine ⟨fun i there => ?_, fun r known there => ?_⟩
      · rcases new i there with old | rfl
        · exact grows (used old)
        · exact drawn
      · rw [split] at known
        rcases List.mem_append.mp known with before_known | just
        · rcases new _ there with old | rfl
          · exact earlier r before_known old
          · exact absurd ((registered before).drawn r before_known) fresh.2
        · obtain ⟨item, member, rest⟩ := own r just
          refine ⟨item, ?_, rest⟩
          rw [accepted, List.filterMap_append]
          exact List.mem_append_right _ member

theorem job_item (h : Visit cfg P tr s) (record : j ∈ s.jobs.keys) {item : QueuedItem}
    (accept : item ∈ accepted tr) (named : item.jobId = j) : item.stores = true := by
  subst named
  obtain ⟨item', accept', same, stores⟩ := (jobRequests h).stored _
    (request_mem_requests accept) record
  have id : item'.jobId = item.jobId := by rw [QueuedItem.jobId, same, QueuedItem.jobId]
  obtain rfl := accepted_unique h accept' accept id
  exact stores

private theorem early_of_item {item : QueuedItem} (member : item ∈ s.items)
    (stores : item.stores = true) (named : item.jobId = j) : s.phase j = some .early := by
  have here : (s.items.any fun i => i.stores && i.jobId = j) = true :=
    List.any_eq_true.mpr ⟨item, member, by simp [stores, named]⟩
  rw [State.phase, if_pos here]

theorem early_of_waits (h : Visit cfg P tr s) (record : j ∈ s.jobs.keys)
    (waits : s.waits j = true) :
    s.phase j = some .early := by
  obtain ⟨item, member, named⟩ := waits_iff.mp waits
  have stores := job_item h record (undispatched_accepted h member) named
  exact early_of_item (s.items_eq ▸ List.mem_append_right _ member) stores named

/-! ### The slots of jobs -/

private theorem synthesis_task (h : Visit cfg P tr s) {t : Task} (task : s.tasks j = some t)
    {r : SynthesisRequest} (known : .synthesis r ∈ requests tr) (named : r.jobId = j) :
    ∃ w cb at' pc, t = .collector w (.synthesis r) cb at' pc := by
  have serves := (placed h).serves j t task
  have same : t.role.request = .synthesis r :=
    request_of_id h serves.known known (serves.named.trans named.symm)
  have fits := serves.fits
  cases t with
  | collector w request cb at' pc =>
    obtain rfl : request = .synthesis r := same
    exact ⟨w, cb, at', pc, rfl⟩
  | stream request pc =>
    cases fits
    cases same
  | clone w request pc =>
    cases fits
    cases same

private theorem synthesis_owned (noShadow : NoShadow cfg P) (h : Visit cfg P tr s)
    {r : SynthesisRequest} {w : WorkerRef} (told : .dispatched (.synthesis r) w ∈ tr)
    (owed : (r.jobId, w) ∈ outstanding (slotLog tr)) : Owns s r.jobId w := by
  induction h using visit_induction with
  | start => cases told
  | @change s₀ e s s' tr o before ih meets change =>
    have split : slotLog (tr ++ o) = slotLog tr ++ slotLog o := List.filterMap_append
    have new_take : .dispatched (.synthesis r) w ∈ o → Entry.take r.jobId w ∈ slotLog o :=
      fun here => List.mem_filterMap.mpr ⟨_, here, rfl⟩
    rw [split] at owed
    cases change.slots before with
    | same _ log owns =>
      rw [log, List.append_nil] at owed
      rw [log] at new_take
      have old :=
        (List.mem_append.mp told).resolve_right fun here => List.not_mem_nil (new_take here)
      exact (owns _ w).mpr (ih old owed)
    | takes _ _ log _ _ owns =>
      rw [log, outstanding_take, List.mem_append, List.mem_singleton] at owed
      rw [log, List.mem_singleton] at new_take
      refine (owns _ w).mpr ?_
      rcases List.mem_append.mp told with old | here
      · exact owed.imp (ih old) id
      · obtain ⟨named, place⟩ := Entry.take.inj (new_take here)
        exact .inr (Prod.ext named place)
    | @gives k v ms i owned slot log owns =>
      have ledger := books noShadow before
      obtain ⟨rfl, -⟩ := slot.unshadowed (ledger.own k v (.inr owned))
      have old : .dispatched (.synthesis r) w ∈ tr := by
        refine (List.mem_append.mp told).resolve_right fun here => ?_
        have take := new_take here
        simp [log] at take
      rw [log] at owed
      change (r.jobId, w) ∈ outstanding (slotLog tr ++ [Entry.give k v]) at owed
      rw [outstanding_give,
        ledger.sound.mem_outstanding_erase (ledger.owed k v (.inr owned))] at owed
      exact (owns _ w).mpr ⟨ih old owed.1, owed.2⟩
    | @drops k v owned _ log owns cause =>
      rw [log, List.append_nil] at owed
      rw [log] at new_take
      have old :=
        (List.mem_append.mp told).resolve_right fun here => List.not_mem_nil (new_take here)
      refine (owns _ w).mpr ⟨ih old owed, ?_⟩
      rintro rfl
      obtain ⟨r', pc, task⟩ : ∃ r' pc, s.tasks r.jobId = some (.stream r' pc) := by
        rcases cause with ⟨r', -, -, task⟩ | ⟨item, -, -, task⟩ <;> exact ⟨_, _, task⟩
      obtain ⟨_, _, _, _, other⟩ := synthesis_task before task (dispatched_request before old) rfl
      cases other

private theorem collector_stores (h : Visit cfg P tr s) {w : WorkerRef} {r : Request}
    {cb : OnComplete} {at' : ℚ} {pc : CollectPc}
    (task : s.tasks j = some (.collector w r cb at' pc)) (record : j ∈ s.jobs.keys) :
    ∃ k fmt dir, cb = .store k fmt dir := by
  obtain ⟨item, told, rfl, callback⟩ := ((placed h).serves j _ task).origin
  have accept : item ∈ accepted tr := drained_accepted h told
  have stores := job_item h record accept (collector_serves h task).2.1
  rw [QueuedItem.stores, callback] at stores
  cases cb with
  | store k fmt dir => exact ⟨k, fmt, dir, rfl⟩
  | bridge => cases stores

theorem job_request (h : Visit cfg P tr s) {r : Request} (known : r ∈ requests tr)
    (record : r.jobId ∈ s.jobs.keys) : ∃ request, r = .synthesis request := by
  obtain ⟨item, accept, rfl, stores⟩ := (jobRequests h).stored r known record
  cases proper_of_accepted h accept with
  | job => exact ⟨_, rfl⟩
  | stream => cases stores

theorem early_of_active (noShadow : NoShadow cfg P) (h : Visit cfg P tr s)
    (record : j ∈ s.jobs.keys) (active : s.active j = true) : s.phase j = some .early := by
  obtain ⟨w, handle, found, member⟩ := active_iff.mp active
  have ledger := books noShadow h
  rw [ledger.keys w handle found] at member
  have owed := mem_atPlace.mp member
  obtain ⟨r, told, rfl⟩ := mem_taken.mp (ledger.sound.outstanding_sublist.subset owed)
  have known := dispatched_request h told
  obtain ⟨request, rfl⟩ := job_request h known record
  rcases synthesis_owned noShadow h told owed with loop | task
  · obtain ⟨p, here, place⟩ := Option.map_eq_some_iff.mp loop
    have mine : p.1 ∈ s.items := by
      rw [s.items_eq, here]
      simp
    have named := (Prod.mk.inj place).1
    exact early_of_item mine (job_item h record (items_accepted h mine) named) named
  · obtain ⟨t, task, holds⟩ := Option.bind_eq_some_iff.mp task
    obtain ⟨v, cb, at', pc, rfl⟩ := synthesis_task h task known rfl
    obtain ⟨k, fmt, dir, rfl⟩ := collector_stores h task record
    have phase : s.phase request.jobId = pc.phase := phase_of_task h task rfl
    cases pc <;> simp [Task.holds, CollectPc.holds] at holds <;> exact phase

private theorem active_of_owns (noShadow : NoShadow cfg P) (h : Visit cfg P tr s) {w : WorkerRef}
    (owner : Owns s j w) : s.active j = true := by
  have ledger := books noShadow h
  obtain ⟨handle, found, -⟩ := ledger.own j w owner
  refine active_iff.mpr ⟨w, handle, found, ?_⟩
  rw [ledger.keys w handle found]
  exact mem_atPlace.mpr (ledger.owed j w owner)

/-- A job whose callback is still to be called waits or stands on a worker. -/
theorem early_cases (noShadow : NoShadow cfg P) (h : Visit cfg P tr s)
    (early : s.phase j = some .early) : s.waits j = true ∨ s.active j = true := by
  unfold State.phase at early
  split_ifs at early with items
  · obtain ⟨item, member, mine⟩ := List.any_eq_true.mp items
    simp only [Bool.and_eq_true, decide_eq_true_eq] at mine
    rw [s.items_eq, List.mem_append] at member
    rcases member with sent | waiting
    · obtain ⟨p, here, rfl⟩ : ∃ p, s.drain.dispatching? = some p ∧ p.1 = item := by simpa using sent
      refine .inr (active_of_owns noShadow h (w := p.2) (.inl ?_))
      rw [DrainPc.holds, here, Option.map_some, mine.2]
    · exact .inl (waits_iff.mpr ⟨item, waiting, mine.2⟩)
  · obtain ⟨t, task, phase⟩ := Option.bind_eq_some_iff.mp early
    cases t with
    | collector w r cb at' pc =>
      refine .inr (active_of_owns noShadow h (w := w) (.inr ?_))
      rw [held, task, Option.bind_some]
      cases cb with
      | bridge => cases phase
      | store => cases pc <;> simp [Task.phase, CollectPc.phase] at phase <;> rfl
    | stream => cases phase
    | clone => cases phase

theorem not_active_of_waits (noShadow : NoShadow cfg P) (h : Visit cfg P tr s)
    (waits : s.waits j = true) : s.active j = false := by
  obtain ⟨item, member, rfl⟩ := waits_iff.mp waits
  rw [← Bool.not_eq_true, active_iff]
  rintro ⟨w, handle, found, active⟩
  have ledger := books noShadow h
  rw [ledger.keys w handle found] at active
  have taken := ledger.sound.outstanding_sublist.subset (mem_atPlace.mp active)
  exact not_taken h (.inr ⟨item, member, rfl⟩) (List.mem_map_of_mem taken)

end XttsServer.Model
