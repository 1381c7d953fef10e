import XttsServer.Runs.Accounting

/-!
What the slot accounting of the dispatcher guarantees: the counters are exact for
any interleaving, and a taken slot keeps an owner unless a stream handler is
cancelled too early.
-/

set_option autoImplicit false
set_option relaxedAutoImplicit false

namespace XttsServer.Guarantees

open XttsServer.Model XttsServer.Foundations.Transition XttsServer.Foundations.Ledger

variable {cfg : Config} {P : State → Event → Prop} {s : State} {tr : List Obs}

/-! ### Exact counters -/

def dispatchedTo (tr : List Obs) (i : WorkerRef) : List JobId := atPlace i (taken (slotLog tr))

def releasedOn (tr : List Obs) (i : WorkerRef) : List JobId := atPlace i (given (slotLog tr))

/-- The workers on which `release` was called for the request. -/
def releasesOf (tr : List Obs) (j : JobId) : List WorkerRef :=
  ((given (slotLog tr)).filter fun p => p.1 = j).map Prod.snd

structure SlotsExact (cfg : Config) (tr : List Obs) (s : State) : Prop where
  /-- `active_requests` counts the keys of `active_jobs` and the dispatched requests that are
  not released, `total_requests` the releases. -/
  counted : ∀ i w, s.workers[i]? = some w →
    w.activeRequests = w.activeJobs.size ∧
    w.activeRequests = ((dispatchedTo tr i).filter (· ∉ releasedOn tr i)).length ∧
    w.totalRequests = (releasedOn tr i).length
  /-- No release that may come next subtracts from zero. -/
  unclamped : ∀ e s' o j i, step cfg s e = some (s', o) → .released j i ∈ o →
    ∃ w, s.workers[i]? = some w ∧ 1 ≤ w.activeRequests
  /-- A dispatched request is released at most once, on its own worker. -/
  once : ∀ r i, .dispatched r i ∈ tr → releasesOf tr r.jobId = [] ∨ releasesOf tr r.jobId = [i]
  /-- Nothing but dispatched requests is released. -/
  only : ∀ j i, .released j i ∈ tr → ∃ r, .dispatched r i ∈ tr ∧ r.jobId = j

private theorem released_now {s₀ s s' : State} {e : Event} {o : List Obs} {j : JobId}
    {i : WorkerRef} (change : Change cfg s₀ e s s' o) (told : .released j i ∈ o) : s = s₀ := by
  cases change with
  | jobTurnedAway _ _ told' => rcases told' with rfl | rfl <;> simp at told
  | @answered _ a answer => cases a <;> simp [Obs.isAnswer] at answer told
  | jobQueued | jobRaised | batchRefused | bridgeQueued | streamQueued | requestRefused
  | drawn | drainWaits | drainRaises | drainDispatches => simp at told
  | _ => rfl

private theorem released_counted (noShadow : NoShadow cfg P) {s₀ s s' : State} {e : Event}
    {o : List Obs} {j : JobId} {i : WorkerRef} (before : Visit cfg P tr s)
    (change : Change cfg s₀ e s s' o) (told : .released j i ∈ o) :
    ∃ w, s.workers[i]? = some w ∧ 1 ≤ w.activeRequests := by
  have ledger := books noShadow before
  have mine : Entry.give j i ∈ slotLog o := List.mem_filterMap.mpr ⟨_, told, rfl⟩
  cases change.slots before with
  | same _ log => simp [log] at mine
  | takes _ _ log => simp [log] at mine
  | @gives k w ms i' owned slot log =>
    have own := ledger.own k w (.inr owned)
    obtain ⟨rfl, -⟩ := slot.unshadowed own
    obtain ⟨rfl, rfl⟩ : j = k ∧ i = w := by simpa [log] using mine
    obtain ⟨handle, found, -⟩ := own
    refine ⟨handle, found, ?_⟩
    rw [ledger.active i handle found]
    exact List.length_pos_of_mem (mem_atPlace.mpr (ledger.owed j i (.inr owned)))
  | drops _ _ log => simp [log] at mine

private theorem releasesOf_of_taken (sound : Sound (slotLog tr)) {j : JobId} {i : WorkerRef}
    (dispatched : (j, i) ∈ taken (slotLog tr)) :
    releasesOf tr j = [] ∨ releasesOf tr j = [i] := by
  have place : ∀ p ∈ (given (slotLog tr)).filter fun p => p.1 = j, p = (j, i) := by
    intro p hp
    obtain ⟨back, same⟩ := List.mem_filter.mp hp
    exact List.inj_on_of_nodup_map sound.taken_nodup (sound.given_subset back) dispatched
      (of_decide_eq_true same)
  have once : ((given (slotLog tr)).filter fun p => p.1 = j).Nodup :=
    sound.given_nodup.of_map.filter _
  unfold releasesOf
  cases found : (given (slotLog tr)).filter fun p => p.1 = j with
  | nil => exact .inl rfl
  | cons p rest =>
    rw [found] at place once
    obtain rfl : p = (j, i) := place p List.mem_cons_self
    cases rest with
    | nil => exact .inr rfl
    | cons q rest =>
      have twice : q = (j, i) := place q (List.mem_cons_of_mem _ List.mem_cons_self)
      exact absurd List.mem_cons_self (twice ▸ (List.nodup_cons.mp once).1)

/-- The slot accounting is exact in every reachable state, cancelled handlers included. -/
theorem slot_accounting_exact
    (distinct : DistinctIds (start cfg.cudaOk cfg.settings.workersPerGpuList))
    (h : Reach (server cfg) anyStep tr s) : SlotsExact cfg tr s := by
  have noShadow : NoShadow cfg anyStep := noShadow_of_distinct distinct
  have visit := visit_of_reach h
  have ledger := books noShadow visit
  have sound := ledger.sound
  refine ⟨fun i w found => ⟨?_, ?_, ledger.total i w found⟩, ?_, ?_, ?_⟩
  · rw [ledger.active i w found, ← ledger.keys i w found, Foundations.Dict.length_keys]
  · rw [ledger.active i w found, sound.atPlace_outstanding]
    rfl
  · intro e s' o j i taken told
    obtain ⟨before, a, b, o', -, reaches, change, told', -⟩ :=
      (step_changes taken).exists_change told
    have there : Visit cfg anyStep (tr ++ before) a :=
      visit.trans (reaches.mono fun _ _ _ c => ⟨s, e, trivial, c⟩)
    rw [← released_now change told']
    exact released_counted noShadow there change told'
  · intro r i dispatched
    exact releasesOf_of_taken sound (mem_taken.mpr ⟨r, dispatched, rfl⟩)
  · intro j i back
    exact mem_taken.mp (sound.given_subset (mem_given.mpr back))

/-! ### Runs of one worker -/

def oneWorker : Config where
  settings := { workersPerGpuList := [1] }
  workers_valid := by decide

def sayHello : TtsRequest := { text := "hello", speaker := .embedding [[0]] [0] }

def noSpeakers : SpeakerView := fun _ => .notFound

/-- One job from its submission to the release of its worker. -/
def oneJob : List Event :=
  [.submitTts sayHello noSpeakers "a" false, .resumeDrain, .drainPut, .resumeDrain, .resume "a",
    .workerTake 0, .workerReply 0 (.arrays ⟨[1], [0]⟩ ⟨[], []⟩), .getReply "a", .resume "a"]

def runOf (cfg : Config) (events : List Event) : Option (State × List Obs) :=
  exec (server cfg) anyStep (server cfg).init events

theorem oneJob_runs : (runOf oneWorker oneJob).isSome = true := by decide +kernel

/-- Two jobs for one worker: the first is dispatched, the second waits in the parked drain loop. -/
def heldJob : List Event :=
  [.submitTts sayHello noSpeakers "a" false, .submitTts sayHello noSpeakers "b" false, .resumeDrain,
    .drainPut, .resumeDrain]

theorem heldJob_runs : (runOf oneWorker heldJob).isSome = true := by decide +kernel

def twoWorkers : Config where
  settings := { workersPerGpuList := [2] }
  workers_valid := by decide

/-- Three jobs for two workers, of which the first has been answered. -/
def threeJobs : List Event :=
  [.submitTts sayHello noSpeakers "a" false, .submitTts sayHello noSpeakers "b" false,
    .submitTts sayHello noSpeakers "c" false, .resumeDrain, .drainPut, .resumeDrain, .drainPut,
    .resumeDrain, .resume "a", .workerTake 0, .workerReply 0 (.arrays ⟨[1], [0]⟩ ⟨[], []⟩),
    .getReply "a", .resume "a"]

theorem threeJobs_run : (runOf twoWorkers threeJobs).isSome = true := by decide +kernel

theorem slot_accounting_exact_three_jobs :
    SlotsExact twoWorkers ((runOf twoWorkers threeJobs).get threeJobs_run).2
      ((runOf twoWorkers threeJobs).get threeJobs_run).1 :=
  slot_accounting_exact (by decide +kernel) (reach_of_exec threeJobs_run)

/-! ### Slots with an owner -/

def quiescent (s : State) : Prop :=
  s.queue = [] ∧ s.drain = .getting ∧ ∀ j t, s.tasks j = some t → t.finished = true

structure SlotsOwned (s : State) : Prop where
  /-- Each unit of `active_requests` belongs to a different live owner. -/
  owned : ∀ i w, s.workers[i]? = some w →
    ∃ owners : List JobId, owners.Nodup ∧ owners.length = w.activeRequests ∧
      ∀ j ∈ owners, Owns s j i
  idle : quiescent s → ∀ w ∈ s.workers, w.activeRequests = 0

/-- The step neither cancels a stream handler between its enqueue and its `try` nor dispatches
to a worker whose id an earlier worker has. -/
def keepsOwners (s : State) (e : Event) : Prop :=
  cancelsUnstarted s e = false ∧ dispatchesShadowed s e = false

theorem not_owns_of_quiescent (quiet : quiescent s) (j : JobId) (w : WorkerRef) : ¬ Owns s j w := by
  obtain ⟨-, loop, tasks⟩ := quiet
  rintro (draining | holding)
  · rw [loop] at draining
    cases draining
  · obtain ⟨t, task, holds⟩ := Option.bind_eq_some_iff.mp holding
    have done := tasks j t task
    cases t with
    | collector w r cb t pc =>
      cases pc <;> simp [Task.finished, Task.holds, CollectPc.holds] at done holds
    | stream r pc => cases pc <;> simp [Task.finished, Task.holds, StreamPc.holds] at done holds
    | clone w r pc => cases pc <;> simp [Task.finished, Task.holds, ClonePc.holds] at done holds

/-- As long as no step breaks `keepsOwners`, no slot leaks. -/
theorem no_slot_leaks (h : Reach (server cfg) keepsOwners tr s) : SlotsOwned s := by
  have noShadow : NoShadow cfg keepsOwners := noShadow_of_steps fun _ _ fine => fine.2
  have visit := visit_of_reach h
  have ledger := books noShadow visit
  have owners : ∀ i w, s.workers[i]? = some w → ∃ owners : List JobId, owners.Nodup ∧
      owners.length = w.activeRequests ∧ ∀ j ∈ owners, Owns s j i := by
    intro i w found
    refine ⟨atPlace i (outstanding (slotLog tr)), ?_, (ledger.active i w found).symm, ?_⟩
    · exact ledger.sound.outstanding_nodup.sublist (atPlace_sublist i _)
    · exact fun j member => outstanding_owned noShadow (fun _ _ fine => fine.1) visit
        (mem_atPlace.mp member)
  refine ⟨owners, fun quiet w member => ?_⟩
  obtain ⟨i, found⟩ := List.getElem?_of_mem member
  obtain ⟨js, -, count, live⟩ := owners i w found
  cases js with
  | nil => exact count.symm
  | cons j js => exact absurd (live j List.mem_cons_self) (not_owns_of_quiescent quiet j i)

instance (s : State) (e : Event) :
    Decidable (keepsOwners s e) := inferInstanceAs (Decidable (_ ∧ _))

private theorem heldJob_keepsOwners :
    (exec (server oneWorker) keepsOwners (server oneWorker).init heldJob).isSome = true := by
  decide +kernel

theorem no_slot_leaks_held_job :
    SlotsOwned ((exec (server oneWorker) keepsOwners (server oneWorker).init heldJob).get
      heldJob_keepsOwners).1 :=
  no_slot_leaks (reach_of_exec heldJob_keepsOwners)

/-- A stream whose handler is cancelled while its item is in the queue. -/
def cancelledStream : List Event :=
  [.streamTts { text := "hello", speaker := .embedding [[0]] [0] } noSpeakers "a",
    .cancelStream "a", .resumeDrain, .drainPut, .resumeDrain]

private theorem cancelledStream_runs : (runOf oneWorker cancelledStream).isSome = true := by
  decide +kernel

instance (s : State) (j : JobId) (w : WorkerRef) : Decidable (Owns s j w) :=
  inferInstanceAs (Decidable (_ ∨ _))

/-- The slot of a stream that was cancelled before its dispatch stays taken for ever. -/
theorem slots_leak_on_cancellation :
    ¬ ∀ cfg tr s, Reach (server cfg) anyStep tr s → SlotsOwned s := by
  intro all
  have reach := reach_of_exec cancelledStream_runs
  have kept := all oneWorker _ _ reach
  have busy : (((runOf oneWorker cancelledStream).get cancelledStream_runs).1.workers[0]?.map
      WorkerHandle.activeRequests) = some 1 := by decide +kernel
  obtain ⟨w, found, one⟩ := Option.map_eq_some_iff.mp busy
  obtain ⟨owners, -, count, live⟩ := kept.owned 0 w found
  rw [one] at count
  obtain ⟨j, rfl⟩ := List.length_eq_one_iff.mp count
  have named := owns_named (visit_of_reach reach) (live j List.mem_cons_self)
  have nobody : ∀ j ∈ (requests ((runOf oneWorker cancelledStream).get cancelledStream_runs).2).map
      Request.jobId, ¬ Owns ((runOf oneWorker cancelledStream).get cancelledStream_runs).1 j 0 := by
    decide +kernel
  exact nobody j named (live j List.mem_cons_self)

end XttsServer.Guarantees
