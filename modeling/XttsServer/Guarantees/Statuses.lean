import XttsServer.Guarantees.Lifecycle
import XttsServer.Runs.Pipeline
import XttsServer.Runs.Records

/-!
What the status of a job tells about the place of its request: everything but its
dispatch, of which the job store learns when the slot is released again.
-/

set_option autoImplicit false
set_option relaxedAutoImplicit false

namespace XttsServer.Guarantees

open XttsServer.Model XttsServer.Foundations XttsServer.Foundations.Transition

variable {cfg : Config} {P : State → Event → Prop} {s s' : State} {e : Event}
  {tr o : List Obs} {j : JobId}

/-! ### Statuses and places -/

def creates (o : List Obs) (j : JobId) : Event → Prop
  | .submitTts _ _ k _ => k = j ∧ .created j ∈ o
  | .submitBatch _ _ _ _ => ∃ created, .batch created (.ok ()) ∈ o ∧ j ∈ created
  | _ => False

/-- A run, all of whose steps meet `P`, has created the job and gone on to `s`. -/
inductive AsyncJob (cfg : Config) (P : State → Event → Prop) (j : JobId) (tr : List Obs)
    (s : State) :
    Prop
  | created {tr₁ tr₂ o : List Obs} {s₁ s₂ : State} {e : Event}
      (before : Reach (server cfg) P tr₁ s₁) (meets : P s₁ e) (taken : step cfg s₁ e = some (s₂, o))
      (new : creates o j e) (after : Run (server cfg) P s₂ tr₂ s) (all : tr = tr₁ ++ o ++ tr₂)

structure StatusTold (s : State) (j : JobId) (status : JobStatus) : Prop where
  waiting : s.waits j = true → status = .pending
  dispatched : s.active j = true → status = .running
  ended : status.terminal = true → s.waits j = false ∧ s.active j = false

/-- As many records are pending as have a request that waits, and as many are running as have
one that a worker is at. -/
structure CountsAgree (s : State) : Prop where
  pending : s.jobs.stats.pending = s.jobs.entries.countP fun e => s.waits e.1
  running : s.jobs.stats.running = s.jobs.entries.countP fun e => s.active e.1

/-- The item that the drain loop, resumed, will have at hand. -/
def next? (s : State) : Option QueuedItem :=
  match s.drain with
  | .getting => s.queue.head?
  | .waiting item true => some item
  | .put _ _ => s.queue.head?
  | _ => none

def dispatchesJob (s : State) : Event → Bool
  | .resumeDrain => !allBusy s.workers && (next? s).any QueuedItem.stores
  | _ => false

def holdsJobs (s : State) (e : Event) : Prop := dispatchesJob s e = false

def unshadowed (s : State) (e : Event) : Prop := dispatchesShadowed s e = false

/-- The step neither dispatches to a shadowed worker nor leaves a job without a carrier. -/
def orderly (cfg : Config) (s : State) (e : Event) : Prop :=
  dispatchesShadowed s e = false ∧ splitsBatch cfg s e = false ∧ nothingRaises s e

structure StatusLag (cfg : Config) : Prop where
  /-- As long as no job is dispatched, every status is right. -/
  undispatched : ∀ tr s j job, AsyncJob cfg holdsJobs j tr s → s.jobs.get? j = some job →
    StatusTold s j job.status
  /-- The status of a job is right exactly while no worker has the job. -/
  told : ∀ tr s j job, AsyncJob cfg unshadowed j tr s → s.jobs.get? j = some job →
    (StatusTold s j job.status ↔ s.active j = false)
  /-- The counts are right exactly while no job is with a worker or in its callback. -/
  counts : ∀ tr s, Reach (server cfg) (orderly cfg) tr s →
    (CountsAgree s ↔ ∀ j ∈ s.jobs.keys, s.active j = false ∧ s.phase j ≠ some .saving)

/-! ### Jobs and their lives -/

private theorem creates_fresh (h : Reach (server cfg) P (tr ++ o) s')
    (taken : step cfg s e = some (s', o)) (new : creates o j e) :
    j ∉ s.used ∧ j ∈ s'.used ∧ splitsBatch cfg s e = false := by
  cases e with
  | submitTts body speakers k raises =>
    obtain ⟨rfl, told⟩ := new
    refine ⟨?_, ?_, rfl⟩
    · simp only [step] at taken
      split_ifs at taken with fresh
      exact ((canDraw_of_fresh fresh).2 k List.mem_cons_self).2
    · by_contra undrawn
      have born : JobStatus.pending ∈ history (tr ++ o) k :=
        List.mem_filterMap.mpr ⟨_, List.mem_append_right _ told, by simp⟩
      rw [(unborn h k undrawn).2] at born
      cases born
  | submitBatch items speakers ids raiseAt =>
    obtain ⟨created, told, member⟩ := new
    obtain ⟨whole, rs, accepted⟩ := accepted_batch taken told
    rw [accepted.created] at member
    exact ⟨(accepted.fresh.2 j member).2, accepted.drawn member, whole⟩
  | _ => cases new

private theorem async_life (h : AsyncJob cfg P j tr s) :
    Reach (server cfg) P tr s ∧ Life tr s j := by
  obtain ⟨before, meets, taken, new, after, rfl⟩ := h
  have next := before.tail meets taken
  obtain ⟨fresh, drawn, whole⟩ := creates_fresh next taken new
  have life := (life_of_fresh before fresh).whole_step before meets whole taken
  exact ⟨next.trans after, (life.along next drawn after).1⟩

private theorem told_of_idle (h : Visit cfg P tr s) (life : Life tr s j) {job : Job}
    (found : s.jobs.get? j = some job) (idle : s.active j = false) : StatusTold s j job.status := by
  have record : j ∈ s.jobs.keys := (Dict.mem_keys_iff _ _).mpr ⟨job, found⟩
  have waiting : s.waits j = true → job.status = .pending :=
    fun waits => life.status_early (early_of_waits h record waits) found
  refine ⟨waiting, fun active => ?_, fun ended => ⟨?_, idle⟩⟩
  · rw [idle] at active
    cases active
  · rw [← Bool.not_eq_true]
    intro waits
    rw [waiting waits] at ended
    cases ended

private theorem told_iff (noShadow : NoShadow cfg P) (h : Visit cfg P tr s) (life : Life tr s j)
    {job : Job} (found : s.jobs.get? j = some job) :
    StatusTold s j job.status ↔ s.active j = false := by
  refine ⟨fun told => ?_, told_of_idle h life found⟩
  rw [← Bool.not_eq_true]
  intro active
  have record : j ∈ s.jobs.keys := (Dict.mem_keys_iff _ _).mpr ⟨job, found⟩
  have pending := life.status_early (early_of_active noShadow h record active) found
  rw [told.dispatched active] at pending
  cases pending

/-! ### Runs that dispatch no job -/

private theorem drained_next {item : QueuedItem} {w : WorkerRef}
    (taken : resumeDrain s = some (s', o)) (told : .drained item w ∈ o) :
    allBusy s.workers = false ∧ next? s = some item := by
  have at_hand : ∀ {s s' : State} {o : List Obs} {i : QueuedItem}, drainItem s i = (s', o) →
      .drained item w ∈ o → allBusy s.workers = false ∧ i = item := by
    intro s s' o i taken told
    unfold drainItem at taken
    split_ifs at taken with busy
    · obtain ⟨rfl, rfl⟩ := Prod.mk.inj taken
      cases told
    · refine ⟨by simpa using busy, ?_⟩
      unfold drainDispatch at taken
      split at taken
      · obtain ⟨rfl, rfl⟩ := Prod.mk.inj taken
        cases told
      · obtain ⟨rfl, rfl⟩ := Prod.mk.inj taken
        simp at told
        exact told.1.symm
  have top : ∀ {s s' : State} {o : List Obs}, drainTop s = (s', o) → .drained item w ∈ o →
      allBusy s.workers = false ∧ s.queue.head? = some item := by
    intro s s' o taken told
    unfold drainTop at taken
    split at taken
    · obtain ⟨rfl, rfl⟩ := Prod.mk.inj taken
      cases told
    · rename_i i rest queue
      obtain ⟨free, rfl⟩ := at_hand taken told
      exact ⟨free, by rw [queue]; rfl⟩
  unfold resumeDrain at taken
  split at taken
  · rename_i loop
    split_ifs at taken
    simpa only [next?, loop] using top (Option.some.inj taken) told
  · rename_i i loop
    obtain ⟨free, rfl⟩ := at_hand (Option.some.inj taken) told
    exact ⟨free, by simp only [next?, loop]⟩
  · rename_i i v loop
    simpa only [next?, loop, handOver_workers,
      handOver_queue] using top (Option.some.inj taken) told
  · cases taken

private theorem drained_event {s₀ : State} {item : QueuedItem} {w : WorkerRef}
    (change : Change cfg s₀ e s s' o) (told : .drained item w ∈ o) : e = .resumeDrain := by
  cases change with
  | drainDispatches event => exact event
  | jobTurnedAway _ _ told' => rcases told' with rfl | rfl <;> simp at told
  | @answered _ a answer => cases a <;> simp [Obs.isAnswer] at answer told
  | _ => simp [marks_eq_map] at told

private theorem no_job_drained (h : Reach (server cfg) holdsJobs tr s) {item : QueuedItem}
    {w : WorkerRef} (told : .drained item w ∈ tr) : item.stores = false := by
  induction h with
  | refl => cases told
  | @tail s s' tr o e _ meets taken ih =>
    rcases List.mem_append.mp told with old | new
    · exact ih old
    · obtain ⟨_, _, _, _, _, _, change, told', -⟩ := (step_changes taken).exists_change new
      obtain rfl := drained_event change told'
      obtain ⟨free, found⟩ := drained_next taken new
      simpa [holdsJobs, dispatchesJob, free, found] using meets

private theorem active_of_released {k : JobId} {w : WorkerRef} {ms : ℚ} {i : Option WorkerRef}
    (slot : s.releases w ms k s'.workers s'.drain i) (active : s'.active j = true) :
    s.active j = true := by
  obtain ⟨v, handle, found, member⟩ := active_iff.mp active
  rcases slot.cases with ⟨-, same, -⟩ | ⟨releasing, -, -, same, -⟩
  · exact active_iff.mpr ⟨v, handle, same ▸ found, member⟩
  · rw [same, release] at found
    split at found
    · obtain ⟨old, there, rfl⟩ := getElem?_modify_some found
      refine active_iff.mpr ⟨v, old, there, ?_⟩
      split_ifs at member
      · simp only [WorkerHandle.release] at member
        split_ifs at member
        · rw [Dict.keys_erase] at member
          exact List.mem_of_mem_erase member
        · exact member
      · exact member
    · exact active_iff.mpr ⟨v, handle, found, member⟩

/-- What stands on a worker has been dispatched, wherever its slot may be released. -/
private theorem active_dispatched (h : Visit cfg P tr s) (active : s.active j = true) :
    ∃ r w, .dispatched r w ∈ tr ∧ r.jobId = j := by
  induction h using visit_induction with
  | start =>
    obtain ⟨w, handle, found, member⟩ := active_iff.mp active
    rw [(start_idle (List.mem_of_getElem? found)).2.2] at member
    cases member
  | @change s₀ e s s' tr o before ih meets change =>
    have kept : s.active j = true → ∃ r w, .dispatched r w ∈ tr ++ o ∧ r.jobId = j := by
      intro old
      obtain ⟨r, w, told, named⟩ := ih old
      exact ⟨r, w, List.mem_append_left _ told, named⟩
    cases change.slots before with
    | same workers | drops _ workers =>
      rw [State.active, workers] at active
      exact kept active
    | @takes r v told workers =>
      obtain ⟨w, handle, found, member⟩ := active_iff.mp active
      rw [workers] at found
      obtain ⟨old, there, rfl⟩ := getElem?_modify_some found
      split_ifs at member with here
      · rcases (Dict.mem_keys_set _ _ _ _).mp member with already | rfl
        · exact kept (active_iff.mpr ⟨w, old, there, already⟩)
        · exact ⟨r, v, List.mem_append_right _ told, rfl⟩
      · exact kept (active_iff.mpr ⟨w, old, there, member⟩)
    | gives _ slot => exact kept (active_of_released slot active)

private theorem idle_of_held (h : Reach (server cfg) holdsJobs tr s) (record : j ∈ s.jobs.keys) :
    s.active j = false := by
  have visit := visit_of_reach h
  rw [← Bool.not_eq_true]
  intro active
  obtain ⟨r, w, told, rfl⟩ := active_dispatched visit active
  obtain ⟨request, rfl⟩ := job_request visit (dispatched_request visit told) record
  rcases dispatched_cases visit told with ⟨item, drained, same⟩ | ⟨⟨_, other⟩, -⟩
  · have accept : item ∈ accepted tr := drained_accepted visit (mem_drained.mp drained)
    have stores := job_item visit record accept (congrArg Request.jobId same)
    rw [no_job_drained h (mem_drained.mp drained)] at stores
    cases stores
  · cases other

/-! ### Counts -/

private theorem countP_split {α : Type} {l : List α} {p q r : α → Bool}
    (split : ∀ x ∈ l, p x = (q x || r x)) (apart : ∀ x ∈ l, q x = true → r x = false) :
    l.countP p = l.countP q + l.countP r := by
  induction l with
  | nil => rfl
  | cons x l ih =>
    have rest := ih (fun y hy => split y (List.mem_cons_of_mem _ hy))
      fun y hy => apart y (List.mem_cons_of_mem _ hy)
    have here := split x List.mem_cons_self
    have alone := apart x List.mem_cons_self
    rw [List.countP_cons, List.countP_cons, List.countP_cons, rest, here]
    cases left : q x <;> cases right : r x
    · rfl
    · rfl
    · simp
      omega
    · rw [alone left] at right
      cases right

private theorem counts_iff (noShadow : NoShadow cfg P)
    (whole : ∀ s e, P s e → splitsBatch cfg s e = false) (safe : ∀ s e, P s e → nothingRaises s e)
    (h : Visit cfg P tr s) :
    CountsAgree s ↔ ∀ j ∈ s.jobs.keys, s.active j = false ∧ s.phase j ≠ some .saving := by
  have found : ∀ e ∈ s.jobs.entries, s.jobs.get? e.1 = some e.2 :=
    fun e member => (Dict.get?_eq_some_iff _ _ _).mpr member
  have record : ∀ e ∈ s.jobs.entries, e.1 ∈ s.jobs.keys :=
    fun e member => List.mem_map_of_mem member
  have lives : ∀ j, Life tr s j := life whole h
  have carries : ∀ j, OpenCarried j s := open_carried safe h
  have pending : s.jobs.stats.pending = (s.jobs.entries.countP fun e => s.waits e.1) +
      s.jobs.entries.countP fun e => s.active e.1 := by
    refine countP_split (fun e member => ?_) fun e member => not_active_of_waits noShadow h
    rw [Bool.eq_iff_iff, Bool.or_eq_true, decide_eq_true_eq]
    constructor
    · exact fun status => early_cases noShadow h ((carries e.1 e.2 (found e member)).1 status)
    · intro place
      refine (lives e.1).status_early ?_ (found e member)
      rcases place with waits | active
      · exact early_of_waits h (record e member) waits
      · exact early_of_active noShadow h (record e member) active
  have running : s.jobs.stats.running =
      s.jobs.entries.countP fun e => s.phase e.1 = some .saving := by
    refine List.countP_congr fun e member => ?_
    rw [decide_eq_true_eq, decide_eq_true_eq]
    exact ⟨(carries e.1 e.2 (found e member)).2, fun saving =>
      (lives e.1).status_saving saving (found e member)⟩
  have none_active : (s.jobs.entries.countP fun e => s.active e.1) = 0 ↔
      ∀ j ∈ s.jobs.keys, s.active j = false := by
    rw [List.countP_eq_zero, Dict.keys, List.forall_mem_map]
    simp
  have none_saving : (s.jobs.entries.countP fun e => s.phase e.1 = some .saving) = 0 ↔
      ∀ j ∈ s.jobs.keys, s.phase j ≠ some .saving := by
    rw [List.countP_eq_zero, Dict.keys, List.forall_mem_map]
    simp
  constructor
  · rintro ⟨as_queued, as_dispatched⟩
    have idle : (s.jobs.entries.countP fun e => s.active e.1) = 0 := by omega
    have quiet : (s.jobs.entries.countP fun e => s.phase e.1 = some .saving) = 0 := by omega
    exact fun j known => ⟨none_active.mp idle j known, none_saving.mp quiet j known⟩
  · intro all
    have idle := none_active.mpr fun j known => (all j known).1
    have quiet := none_saving.mpr fun j known => (all j known).2
    exact ⟨by omega, by omega⟩

/-- Dispatches, and nothing else, are what the statuses and the counts miss. -/
theorem status_lags (cfg : Config) : StatusLag cfg := by
  refine ⟨fun tr s j job async found => ?_, fun tr s j job async found => ?_, fun tr s h => ?_⟩
  · obtain ⟨h, life⟩ := async_life async
    have record : j ∈ s.jobs.keys := (Dict.mem_keys_iff _ _).mpr ⟨job, found⟩
    exact told_of_idle (visit_of_reach h) life found (idle_of_held h record)
  · obtain ⟨h, life⟩ := async_life async
    exact told_iff (noShadow_of_steps fun _ _ fine => fine) (visit_of_reach h) life found
  · exact counts_iff (noShadow_of_steps fun _ _ fine => fine.1) (fun _ _ fine => fine.2.1)
      (fun _ _ fine => fine.2.2) (visit_of_reach h)

instance (s : State) (e : Event) : Decidable (unshadowed s e) := inferInstanceAs (Decidable (_ = _))

instance (s : State) (e : Event) : Decidable (orderly cfg s e) :=
  inferInstanceAs (Decidable (_ ∧ _ ∧ _))

private theorem firstJob_runs : (exec (server oneWorker) unshadowed (server oneWorker).init
    [.submitTts sayHello noSpeakers "a" false]).isSome = true := by decide +kernel

private theorem secondJob_steps :
    (step oneWorker ((exec (server oneWorker) unshadowed (server oneWorker).init
      [.submitTts sayHello noSpeakers "a" false]).get firstJob_runs).1
        (.submitTts sayHello noSpeakers "b" false)).isSome = true := by decide +kernel

private theorem secondJob_held : (exec (server oneWorker) unshadowed
    ((step oneWorker ((exec (server oneWorker) unshadowed (server oneWorker).init
      [.submitTts sayHello noSpeakers "a" false]).get firstJob_runs).1
        (.submitTts sayHello noSpeakers "b" false)).get secondJob_steps).1
      [.resumeDrain, .drainPut, .resumeDrain]).isSome = true := by decide +kernel

private theorem heldJob_orderly :
    (exec (server oneWorker) (orderly oneWorker) (server oneWorker).init
    heldJob).isSome = true := by decide +kernel

/-- The second job of `heldJob` waits and is pending; the first is with the worker, and the counts
do not agree. -/
theorem status_lags_held_job :
    (∀ job, ((exec (server oneWorker) unshadowed
        ((step oneWorker ((exec (server oneWorker) unshadowed (server oneWorker).init
          [.submitTts sayHello noSpeakers "a" false]).get firstJob_runs).1
            (.submitTts sayHello noSpeakers "b" false)).get secondJob_steps).1
          [.resumeDrain, .drainPut, .resumeDrain]).get secondJob_held).1.jobs.get? "b" = some job →
      job.status = .pending) ∧
    ¬ CountsAgree ((exec (server oneWorker) (orderly oneWorker) (server oneWorker).init heldJob).get
      heldJob_orderly).1 := by
  have lag := status_lags oneWorker
  refine ⟨fun job found => ?_, fun agree => ?_⟩
  · have second : AsyncJob oneWorker unshadowed "b" _ _ := .created (reach_of_exec firstJob_runs)
      (by decide +kernel) (Option.some_get secondJob_steps).symm ⟨rfl, by decide +kernel⟩
      (run_of_exec (Option.some_get secondJob_held).symm) rfl
    exact ((lag.told _ _ "b" job second found).mpr (by decide +kernel)).waiting (by decide +kernel)
  · have idle := (lag.counts _ _ (reach_of_exec heldJob_orderly)).mp agree "a" (by decide +kernel)
    have active : ((exec (server oneWorker) (orderly oneWorker) (server oneWorker).init heldJob).get
      heldJob_orderly).1.active "a" = true := by decide +kernel
    rw [active] at idle
    cases idle.1

private theorem hello_submitted : (step oneWorker (State.init oneWorker)
    (.submitTts sayHello noSpeakers "a" false)).isSome = true := by decide +kernel

private theorem hello_dispatched :
    (exec (server oneWorker) anyStep ((step oneWorker (State.init oneWorker)
      (.submitTts sayHello noSpeakers "a" false)).get hello_submitted).1
        [.resumeDrain]).isSome = true := by
  decide +kernel

/-- A job that has just been dispatched is still pending. -/
theorem dispatched_and_pending : ¬ ∀ cfg j tr s job, AsyncJob cfg anyStep j tr s →
    s.jobs.get? j = some job → StatusTold s j job.status := by
  intro all
  have pending : (((exec (server oneWorker) anyStep ((step oneWorker (State.init oneWorker)
      (.submitTts sayHello noSpeakers "a" false)).get hello_submitted).1 [.resumeDrain]).get
        hello_dispatched).1.jobs.get? "a").any (·.status = .pending) = true := by decide +kernel
  have active : ((exec (server oneWorker) anyStep ((step oneWorker (State.init oneWorker)
      (.submitTts sayHello noSpeakers "a" false)).get hello_submitted).1 [.resumeDrain]).get
        hello_dispatched).1.active "a" = true := by decide +kernel
  obtain ⟨job, found, status⟩ := (Option.any_eq_true _ _).mp pending
  have told :=
    all oneWorker "a" _ _ job (.created .refl trivial (Option.some_get hello_submitted).symm
      ⟨rfl, by decide +kernel⟩ (run_of_exec (Option.some_get hello_dispatched).symm) rfl) found
  rw [told.dispatched active] at status
  cases status

end XttsServer.Guarantees
