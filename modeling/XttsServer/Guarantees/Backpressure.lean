import XttsServer.Guarantees.Lifecycle

/-!
When the queue turns requests away, and when the drain loop sleeps: it is asleep
only while all workers are busy, but a burst fills the queue before the loop runs.
-/

set_option autoImplicit false
set_option relaxedAutoImplicit false

namespace XttsServer.Guarantees

open XttsServer.Model XttsServer.Foundations.Transition

variable {cfg : Config} {P : State → Event → Prop} {s s' s₀ : State} {e : Event}
  {tr o : List Obs}

/-! ### The sleeping drain loop -/

def AllBusy (s : State) : Prop := ∀ w ∈ s.workers, 1 ≤ w.activeRequests

instance (s : State) : Decidable (AllBusy s) :=
  inferInstanceAs (Decidable (∀ w ∈ s.workers, 1 ≤ w.activeRequests))

/-- The loop is parked in `cond.wait()` and nothing has notified it. -/
def asleep (pc : DrainPc) : Bool :=
  match pc with
  | .waiting _ notified => !notified
  | _ => false

theorem allBusy_iff (some_worker : s.workers ≠ []) : allBusy s.workers = true ↔ AllBusy s := by
  simp [allBusy, AllBusy, some_worker]

@[simp] theorem asleep_notify (pc : DrainPc) : asleep pc.notify = false := by cases pc <;> rfl

private theorem busy_acquire {workers : List WorkerHandle} (i : WorkerRef) (j : JobId) (now : ℚ)
    (busy : ∀ w ∈ workers, 1 ≤ w.activeRequests) :
    ∀ w ∈ workers.modify i fun h => h.acquire j now, 1 ≤ w.activeRequests := by
  intro w member
  obtain ⟨k, found⟩ := List.getElem?_of_mem member
  rw [List.getElem?_modify] at found
  obtain ⟨h, there, rfl⟩ := Option.map_eq_some_iff.mp found
  have before := busy h (List.mem_of_getElem? there)
  split_ifs
  · exact Nat.le_add_left 1 _
  · exact before

/-- A release wakes the loop whenever it touches a counter. -/
private theorem asleep_release {w : WorkerRef} {ms : ℚ} {j : JobId} {workers : List WorkerHandle}
    {drain : DrainPc} {i : Option WorkerRef} (slot : s.releases w ms j workers drain i)
    (still : asleep drain = true) : asleep s.drain = true ∧ workers = s.workers := by
  rcases slot.cases with ⟨-, same, rfl, -⟩ | ⟨_, -, -, -, rfl, -⟩
  · exact ⟨still, same⟩
  · rw [asleep_notify] at still
    cases still

/-- Whatever lets the loop sleep on or falsifies what it waits for keeps all workers busy. -/
private theorem Change.asleep_busy (before : asleep s.drain = true → AllBusy s)
    (change : Change cfg s₀ e s s' o) (still : asleep s'.drain = true) : AllBusy s' := by
  cases change with
  | cloneStart => exact busy_acquire _ _ _ (before still)
  | @drainWaits s item rest _ busy =>
    have all : !s.workers.isEmpty && s.workers.all (fun w => 1 ≤ w.activeRequests) := busy
    intro w member
    exact of_decide_eq_true (List.all_eq_true.mp (Bool.and_eq_true_iff.mp all).2 w member)
  | drainRaises | drainDispatches | drainPut | handedOver => cases still
  | collected _ _ _ slot | leave _ _ slot | cloneDone _ _ slot =>
    obtain ⟨slept, same⟩ := asleep_release slot still
    have all := before slept
    unfold AllBusy at all ⊢
    rwa [← same] at all
  | _ => exact before still

theorem asleep_busy (h : Visit cfg P tr s) (still : asleep s.drain = true) : AllBusy s := by
  induction h using visit_induction with
  | start => cases still
  | change _ ih _ change => exact Change.asleep_busy ih change still

/-- The drain loop, which dispatches a request if it is run next, or is about to be woken by
the executor thread that puts its last one. -/
def drainAwake (cfg : Config) (s : State) : Prop :=
  (∃ s' o item w, step cfg s .resumeDrain = some (s', o) ∧ .drained item w ∈ o) ∨
    ∃ s' o, step cfg s .drainPut = some (s', o)

/-- A loop that sleeps finds all workers busy; so while a request waits for a worker and a worker
is idle, the loop is awake. -/
theorem no_lost_wakeup (h : Reach (server cfg) anyStep tr s) :
    (asleep s.drain = true → AllBusy s) ∧
      (s.undispatched ≠ [] → ¬ AllBusy s → drainAwake cfg s) := by
  have visit := visit_of_reach h
  refine ⟨asleep_busy visit, fun waits idle => ?_⟩
  have some_worker := workers_ne_nil visit
  have free : allBusy s.workers = false := by
    rwa [← Bool.not_eq_true, allBusy_iff some_worker]
  obtain ⟨w, picked⟩ := pickWorker_isSome some_worker
  have drains : s.takesItem = true → drainAwake cfg s := fun takes => by
    obtain ⟨s', o, item, taken, told⟩ := @resumeDrain_drains cfg s w takes free picked
    exact .inl ⟨s', o, item, w, taken, told⟩
  cases loop : s.drain with
  | getting =>
    exact drains (by
      simpa [State.takesItem, State.undispatched, DrainPc.undispatched?, loop] using waits)
  | waiting item notified =>
    have woken : asleep s.drain ≠ true := fun still => idle (asleep_busy visit still)
    exact drains (by simpa [State.takesItem, asleep, loop] using woken)
  | putting item v =>
    have puts : step cfg s .drainPut =
        some ({ putRequest s v item.request with drain := .put item v }, []) := by
      simp only [step, Model.drainPut, loop]
    exact .inr ⟨_, _, puts⟩
  | put item v =>
    exact drains (by
      simpa [State.takesItem, State.undispatched, DrainPc.undispatched?, loop] using waits)
  | raised item => exact absurd loop (drain_alive visit item)

/-- The run ends with the loop parked and the second job in its hands. -/
theorem no_lost_wakeup_held_job :
    (asleep ((runOf oneWorker heldJob).get heldJob_runs).1.drain = true →
        AllBusy ((runOf oneWorker heldJob).get heldJob_runs).1) ∧
      (((runOf oneWorker heldJob).get heldJob_runs).1.undispatched ≠ [] →
        ¬ AllBusy ((runOf oneWorker heldJob).get heldJob_runs).1 →
        drainAwake oneWorker ((runOf oneWorker heldJob).get heldJob_runs).1) :=
  no_lost_wakeup (reach_of_exec heldJob_runs)

example : asleep ((runOf oneWorker heldJob).get heldJob_runs).1.drain = true ∧
    ((runOf oneWorker heldJob).get heldJob_runs).1.undispatched.length = 1 := by decide +kernel

/-! ### Submissions and the bound of the queue -/

/-- How many requests the submission enqueues once its checks have passed. -/
def load (cfg : Config) : Event → Nat
  | .submitTts body speakers _ _ =>
      match resolveTts cfg.settings speakers body with
      | .ok _ => 1
      | .error _ => 0
  | .submitBatch items speakers _ _ =>
      match resolveBatch cfg.settings speakers items with
      | .ok rs => rs.length
      | .error _ => 0
  | .runSynthesis body speakers _ =>
      match resolveTts cfg.settings speakers body with
      | .ok _ => 1
      | .error _ => 0
  | .streamTts params speakers _ =>
      match resolveStream cfg.settings speakers params with
      | .ok _ => 1
      | .error _ => 0
  | _ => 0

/-- The submission needs more places than the queue has left. -/
def overflows (cfg : Config) (s : State) (e : Event) : Bool :=
  !e.makeQueueRaises && 0 < cfg.settings.maxQueueSize &&
    cfg.settings.maxQueueSize < s.queue.length + load cfg e

/-- A submission that needs more places than the queue has left, while a worker is idle. -/
def overflowsIdle (cfg : Config) (s : State) (e : Event) : Prop :=
  overflows cfg s e = true ∧ ¬ AllBusy s

/-- Whenever the step refuses a request, all workers are busy and `MAX_QUEUE_SIZE` requests are
waiting. -/
def refusesSaturated (cfg : Config) (s : State) (e : Event) : Prop :=
  ∀ s' o item, step cfg s e = some (s', o) → .rejected item ∈ o →
    AllBusy s' ∧ (s'.queue.length : Int) = cfg.settings.maxQueueSize

def Bounded (cfg : Config) (s : State) : Prop :=
  0 < cfg.settings.maxQueueSize → s.queue.length ≤ cfg.settings.maxQueueSize

private theorem Change.bounded (before : Bounded cfg s) (change : Change cfg s₀ e s s' o) :
    Bounded cfg s' := by
  have grows : ∀ item : QueuedItem, queueFull cfg s = false →
      0 < cfg.settings.maxQueueSize → ((s.queue ++ [item]).length : Int) ≤
        cfg.settings.maxQueueSize := by
    intro item room positive
    simp only [queueFull, Bool.and_eq_false_iff, decide_eq_false_iff_not] at room
    rw [List.length_append, List.length_singleton]
    omega
  have shrinks : ∀ item rest, s.atHand item rest →
      0 < cfg.settings.maxQueueSize → (rest.length : Int) ≤ cfg.settings.maxQueueSize := by
    intro item rest hand positive
    have old := before positive
    rcases hand with
      ⟨-, queue⟩ | ⟨-, queue⟩ <;> simp only [queue, List.length_cons] at old <;> omega
  cases change with
  | jobQueued _ room | bridgeQueued _ room | streamQueued _ _ room => exact grows _ room
  | drainWaits hand | drainRaises hand | drainDispatches _ _ hand => exact shrinks _ _ hand
  | _ => exact before

theorem bounded (h : Visit cfg P tr s) : Bounded cfg s := by
  induction h using visit_induction with
  | start => exact fun positive => le_of_lt (by simpa [State.init] using positive)
  | change _ ih _ change => exact Change.bounded ih change

def Refuses (o : List Obs) : Prop := ∃ item, .rejected item ∈ o

/-- What a submission of `count` requests, whose `make_queue` raises or not, comes to. -/
structure Outcome (cfg : Config) (s : State) (raises : Bool) (count : Nat) (s' : State)
    (o : List Obs) : Prop where
  refuses : Refuses o ↔ raises = false ∧ 0 < cfg.settings.maxQueueSize ∧
    cfg.settings.maxQueueSize < s.queue.length + count
  saturated : Refuses o → s'.workers = s.workers ∧ queueFull cfg s' = true
  silent : count = 0 → accepted o = []

private theorem refuses_append {o' : List Obs} : Refuses (o ++ o') ↔ Refuses o ∨ Refuses o' := by
  simp [Refuses, exists_or]

private theorem not_refuses (none : ∀ item, .rejected item ∉ o) : ¬ Refuses o :=
  fun ⟨item, told⟩ => none item told

private theorem full_iff (bounded : Bounded cfg s) :
    queueFull cfg s = true ↔ 0 < cfg.settings.maxQueueSize ∧
      cfg.settings.maxQueueSize < s.queue.length + 1 := by
  simp only [queueFull, Bool.and_eq_true, decide_eq_true_eq]
  refine and_congr_right fun positive => ?_
  have limit := bounded positive
  omega

private theorem submitLoop_refuses {rest : List (Resolved × JobId)} {created all : List JobId}
    {answer : Except Exc Unit} (bounded : Bounded cfg s)
    (run : submitLoop cfg s created rest none = ((s', o), all, answer)) :
    (Refuses o ↔ 0 < cfg.settings.maxQueueSize ∧
        cfg.settings.maxQueueSize < s.queue.length + rest.length) ∧
      (Refuses o → s'.workers = s.workers ∧ queueFull cfg s' = true) := by
  induction rest generalizing s created o with
  | nil =>
    simp only [submitLoop, Prod.mk.injEq] at run
    obtain ⟨⟨rfl, rfl⟩, -, -⟩ := run
    have none : ¬ Refuses [] := not_refuses (by simp)
    refine ⟨iff_of_false none fun crowded => ?_, fun told => absurd told none⟩
    obtain ⟨positive, tooMany⟩ := crowded
    have limit := bounded positive
    rw [List.length_nil] at tooMany
    omega
  | cons p rest ih =>
    obtain ⟨r, j⟩ := p
    cases submitLoop_cases run with
    | raised now => cases now
    | enqueued room tail =>
      have next : Bounded cfg
          { makeQueue (createJob s r j) with queue := s.queue ++ [storeItem cfg s r j] } := by
        intro positive
        have open' := (not_congr (full_iff bounded)).mp (by simp [room])
        simp only [List.length_append, List.length_singleton]
        push_cast
        omega
      obtain ⟨refuses, saturated⟩ := ih next tail
      have first : ¬ Refuses [.created j, .accepted (storeItem cfg s r j)] :=
        not_refuses (by simp)
      rw [refuses_append, or_iff_right first]
      refine ⟨?_, saturated⟩
      rw [refuses, List.length_append, List.length_singleton, List.length_cons]
      push_cast
      rw [add_right_comm, add_assoc]
    | full full =>
      have told : Refuses ([.created j, .rejected (storeItem cfg s r j)] ++
          failMarks (createJob s r j).jobs (created ++ [j])) :=
        ⟨storeItem cfg s r j, by simp⟩
      have tooMany := (full_iff bounded).mp full
      refine ⟨iff_of_true told ⟨tooMany.1, ?_⟩, fun _ => ⟨rfl, full⟩⟩
      rw [List.length_cons]
      push_cast
      omega

private theorem submitLoop_raises {rest : List (Resolved × JobId)} {created all : List JobId}
    {raiseAt : Option Nat}
    (run : submitLoop cfg s created rest raiseAt = ((s', o), all, .error .makeQueue)) :
    ¬ Refuses o := by
  induction rest generalizing s created raiseAt o with
  | nil => simp [submitLoop] at run
  | cons p rest ih =>
    obtain ⟨r, j⟩ := p
    cases submitLoop_cases run with
    | raised => exact not_refuses (by simp)
    | enqueued _ tail =>
      rw [refuses_append, not_or]
      exact ⟨not_refuses (by simp), ih tail⟩

def Enqueues (o : List Obs) : Prop := ∃ item, .accepted item ∈ o ∨ .rejected item ∈ o

private theorem Change.submits (change : Change cfg s₀ e s s' o) (told : Enqueues o) :
    e.submits = true := by
  obtain ⟨item, told⟩ := told
  cases change with
  | jobQueued _ _ submits | jobTurnedAway _ _ _ submits | batchRefused _ _ _ submits
  | bridgeQueued _ _ submits | streamQueued _ _ _ submits | requestRefused _ _ submits =>
    exact submits
  | @answered _ a answer => cases a <;> simp [Obs.isAnswer] at answer told
  | _ => simp [marks_eq_map] at told

private theorem submits_of_enqueues (taken : step cfg s e = some (s', o)) (told : Enqueues o) :
    e.submits = true := by
  obtain ⟨item, told | told⟩ := told
  · obtain ⟨-, _, _, _, -, -, change, here, -⟩ := (step_changes taken).exists_change told
    exact Change.submits change ⟨item, .inl here⟩
  · obtain ⟨-, _, _, _, -, -, change, here, -⟩ := (step_changes taken).exists_change told
    exact Change.submits change ⟨item, .inr here⟩

private theorem Outcome.checked {raises : Bool} (bounded : Bounded cfg s) (quiet : ¬ Refuses o)
    (none : accepted o = []) : Outcome cfg s raises 0 s' o := by
  refine ⟨iff_of_false quiet ?_, fun told => absurd told quiet, fun _ => none⟩
  rintro ⟨-, positive, tooMany⟩
  have limit := bounded positive
  rw [Nat.cast_zero, add_zero] at tooMany
  omega

private theorem Outcome.single (bounded : Bounded cfg s) (told : Refuses o ↔ queueFull cfg s = true)
    (workers : s'.workers = s.workers) (queue : queueFull cfg s = true → s'.queue = s.queue) :
    Outcome cfg s false 1 s' o := by
  refine ⟨?_, fun refused => ⟨workers, ?_⟩, fun zero => absurd zero Nat.one_ne_zero⟩
  · rw [told, full_iff bounded, Nat.cast_one]
    simp
  · have full := told.mp refused
    rwa [queueFull, queue full]

private theorem submitTts_outcome {body : TtsRequest} {speakers : SpeakerView} {j : JobId}
    {raises : Bool} {answer : Except Exc Unit} (bounded : Bounded cfg s)
    (run : submitTts cfg s body speakers j raises = ((s', o), answer)) :
    Outcome cfg s raises (load cfg (.submitTts body speakers j raises)) s' o := by
  unfold submitTts at run
  cases valid : resolveTts cfg.settings speakers body with
  | error exc =>
    have size : load cfg (.submitTts body speakers j raises) = 0 := by simp only [load, valid]
    rw [size]
    simp only [valid, Prod.mk.injEq] at run
    obtain ⟨⟨rfl, rfl⟩, -⟩ := run
    exact .checked bounded (not_refuses (by simp)) (by simp)
  | ok r =>
    have size : load cfg (.submitTts body speakers j raises) = 1 := by simp only [load, valid]
    rw [size]
    simp only [valid] at run
    cases one : submitOne cfg s r j raises with
    | mk effect result =>
      obtain ⟨s₁, o₁⟩ := effect
      rw [one] at run
      rcases submitOne_cases one with ⟨rfl, rfl, rfl, rfl⟩ | ⟨room, rfl, rfl, rfl⟩ |
        ⟨full, rfl, rfl, rfl⟩
      · simp only [Prod.mk.injEq] at run
        obtain ⟨⟨rfl, rfl⟩, -⟩ := run
        have quiet : ¬ Refuses ([.created j] ++ [.tts j (.error .makeQueue)]) :=
          not_refuses (by simp)
        exact ⟨iff_of_false quiet (by simp), fun told => absurd told quiet, fun zero =>
          absurd zero (by simp)⟩
      · simp only [Prod.mk.injEq] at run
        obtain ⟨⟨rfl, rfl⟩, -⟩ := run
        obtain rfl : raises = false := by
          cases raises
          · rfl
          · simp [submitOne] at one
        refine .single bounded (iff_of_false (not_refuses (by simp)) (by simp [room])) rfl ?_
        simp [room]
      · simp only [markFailed, Prod.mk.injEq] at run
        obtain ⟨⟨rfl, rfl⟩, -⟩ := run
        obtain rfl : raises = false := by
          cases raises
          · rfl
          · simp [submitOne] at one
        have told : Refuses ([.created j, .rejected (storeItem cfg s r j)] ++
            marks (makeQueue (createJob s r j)).jobs j .failed ++
            [.tts j (.error (.http 503 (queueFullText cfg s)))]) :=
          ⟨storeItem cfg s r j, by simp⟩
        exact .single bounded (iff_of_true told full) rfl fun _ => rfl

private theorem submitBatch_outcome {items : List BatchItem} {speakers : SpeakerView}
    {ids : List JobId} {raiseAt : Option Nat} {answer : Except Exc Unit} (bounded : Bounded cfg s)
    (enough : ids.length = items.length)
    (reached : raiseAt.isSome = true → answer = .error .makeQueue)
    (run : submitBatch cfg s items speakers ids raiseAt = ((s', o), answer)) :
    Outcome cfg s raiseAt.isSome (load cfg (.submitBatch items speakers ids raiseAt)) s' o := by
  unfold submitBatch at run
  cases valid : resolveBatch cfg.settings speakers items with
  | error exc =>
    have size : load cfg (.submitBatch items speakers ids raiseAt) = 0 := by simp only [load, valid]
    rw [size]
    simp only [valid, Prod.mk.injEq] at run
    obtain ⟨⟨rfl, rfl⟩, -⟩ := run
    exact .checked bounded (not_refuses (by simp)) (by simp)
  | ok rs =>
    have size : load cfg (.submitBatch items speakers ids raiseAt) = rs.length := by
      simp only [load, valid]
    rw [size]
    simp only [valid] at run
    cases loop : submitLoop cfg s [] (rs.zip ids) raiseAt with
    | mk effect result =>
      obtain ⟨s₁, o₁⟩ := effect
      obtain ⟨all, answer'⟩ := result
      rw [loop] at run
      simp only [Prod.mk.injEq] at run
      obtain ⟨⟨rfl, rfl⟩, rfl⟩ := run
      have quiet : ¬ Refuses [.batch all answer'] := not_refuses (by simp)
      have count : (rs.zip ids).length = rs.length := by
        rw [List.length_zip, enough, ← length_resolveBatch valid, Nat.min_self]
      have some_item : rs.length ≠ 0 := by
        rw [length_resolveBatch valid]
        unfold resolveBatch at valid
        split_ifs at valid
        omega
      cases raiseAt with
      | none =>
        obtain ⟨refuses, saturated⟩ := submitLoop_refuses bounded loop
        refine ⟨?_, ?_, fun zero => absurd zero some_item⟩
        · rw [refuses_append, or_iff_left quiet, refuses, count]
          simp
        · rw [refuses_append, or_iff_left quiet]
          exact saturated
      | some k =>
        obtain rfl := reached rfl
        have none : ¬ Refuses (o₁ ++ [.batch all (.error .makeQueue)]) := by
          rw [refuses_append, not_or]
          exact ⟨submitLoop_raises loop, quiet⟩
        exact ⟨iff_of_false none (by simp), fun told => absurd told none,
          fun zero => absurd zero some_item⟩

private theorem runSynthesis_outcome {body : TtsRequest} {speakers : SpeakerView} {j : JobId}
    (bounded : Bounded cfg s) :
    Outcome cfg s false (load cfg (.runSynthesis body speakers j))
      (runSynthesis cfg s body speakers j).1 (runSynthesis cfg s body speakers j).2 := by
  unfold runSynthesis
  cases valid : resolveTts cfg.settings speakers body with
  | error exc =>
    have size : load cfg (.runSynthesis body speakers j) = 0 := by simp only [load, valid]
    rw [size]
    exact .checked bounded (not_refuses (by simp)) (by simp)
  | ok r =>
    have size : load cfg (.runSynthesis body speakers j) = 1 := by simp only [load, valid]
    rw [size]
    by_cases full : queueFull cfg s = true
    · have full' : queueFull cfg (makeQueue { s with used := j :: s.used }) = true := full
      simp only [enqueue, full', if_true]
      exact .single bounded (iff_of_true ⟨_, List.mem_cons_self⟩ full) rfl fun _ => rfl
    · have room : queueFull cfg (makeQueue { s with used := j :: s.used }) = false :=
        (Bool.not_eq_true _).mp full
      simp only [enqueue, room, Bool.false_eq_true, if_false]
      exact .single bounded (iff_of_false (not_refuses (by simp)) full) rfl fun now =>
        absurd now full

private theorem streamTts_outcome {params : StreamRequest} {speakers : SpeakerView} {j : JobId}
    (bounded : Bounded cfg s) :
    Outcome cfg s false (load cfg (.streamTts params speakers j))
      (streamTts cfg s params speakers j).1 (streamTts cfg s params speakers j).2 := by
  unfold streamTts
  cases valid : resolveStream cfg.settings speakers params with
  | error exc =>
    have size : load cfg (.streamTts params speakers j) = 0 := by simp only [load, valid]
    rw [size]
    exact .checked bounded (not_refuses (by simp)) (by simp)
  | ok found =>
    have size : load cfg (.streamTts params speakers j) = 1 := by simp only [load, valid]
    rw [size]
    by_cases full : queueFull cfg s = true
    · have full' : queueFull cfg (makeQueue { s with used := j :: s.used }) = true := full
      simp only [enqueue, full', if_true]
      exact .single bounded (iff_of_true ⟨_, List.mem_cons_self⟩ full) rfl fun _ => rfl
    · have room : queueFull cfg (makeQueue { s with used := j :: s.used }) = false :=
        (Bool.not_eq_true _).mp full
      simp only [enqueue, room, Bool.false_eq_true, if_false]
      exact .single bounded (iff_of_false (not_refuses (by simp)) full) rfl fun now =>
        absurd now full

/-- What a submission comes to is decided by its size and the room in the queue. -/
private theorem submission_outcome (bounded : Bounded cfg s) (taken : step cfg s e = some (s', o))
    (submission : e.submits = true) : Outcome cfg s e.makeQueueRaises (load cfg e) s' o := by
  cases e with
  | submitTts body speakers j raises =>
    simp only [step] at taken
    split_ifs at taken
    cases run : submitTts cfg s body speakers j raises with
    | mk effect answer =>
      rw [run] at taken
      obtain rfl := Option.some.inj taken
      exact submitTts_outcome bounded run
  | submitBatch items speakers ids raiseAt =>
    simp only [step] at taken
    split_ifs at taken with fresh reached
    cases run : submitBatch cfg s items speakers ids raiseAt with
    | mk effect answer =>
      rw [run] at taken reached
      obtain rfl := Option.some.inj taken
      exact submitBatch_outcome bounded fresh.2 (by simpa using reached) run
  | runSynthesis body speakers j =>
    simp only [step] at taken
    split_ifs at taken
    obtain ⟨rfl, rfl⟩ := Prod.mk.inj (Option.some.inj taken)
    exact runSynthesis_outcome bounded
  | streamTts params speakers j =>
    simp only [step] at taken
    split_ifs at taken
    obtain ⟨rfl, rfl⟩ := Prod.mk.inj (Option.some.inj taken)
    exact streamTts_outcome bounded
  | _ => cases submission

private theorem refusesSaturated_iff (visit : Visit cfg anyStep tr s)
    (taken : step cfg s e = some (s', o)) :
    refusesSaturated cfg s e ↔ ¬ overflowsIdle cfg s e := by
  have limit := bounded visit
  constructor
  · rintro fair ⟨tooMany, idle⟩
    have flags : (e.makeQueueRaises = false ∧ 0 < cfg.settings.maxQueueSize) ∧
        cfg.settings.maxQueueSize < s.queue.length + load cfg e := by
      simpa [overflows] using tooMany
    have submission : e.submits = true := by
      by_contra other
      have none : load cfg e = 0 := by cases e <;> simp [Event.submits] at other ⊢ <;> rfl
      have small := limit flags.1.2
      rw [none] at flags
      omega
    have outcome := submission_outcome limit taken submission
    have refused : Refuses o := outcome.refuses.mpr ⟨flags.1.1, flags.1.2, flags.2⟩
    obtain ⟨item, told⟩ := refused
    have busy := (fair s' o item taken told).1
    rw [AllBusy, (outcome.saturated ⟨item, told⟩).1] at busy
    exact idle busy
  · rintro fits s₁ o₁ item taken₁ told
    have submission := submits_of_enqueues taken₁ ⟨item, .inr told⟩
    have outcome := submission_outcome limit taken₁ submission
    obtain ⟨plain, positive, tooMany⟩ := outcome.refuses.mp ⟨item, told⟩
    obtain ⟨workers, full⟩ := outcome.saturated ⟨item, told⟩
    have busy : AllBusy s := by
      by_contra idle
      exact fits ⟨by simp [overflows, plain, positive, tooMany], idle⟩
    have next : Bounded cfg s₁ := bounded (visit.trans
      ((step_changes taken₁).mono fun _ _ _ change => ⟨s, e, trivial, change⟩))
    have most := next positive
    have least : cfg.settings.maxQueueSize ≤ s₁.queue.length := by
      simp only [queueFull, Bool.and_eq_true, decide_eq_true_eq] at full
      exact full.2
    refine ⟨?_, le_antisymm most least⟩
    rw [AllBusy, workers]
    exact busy

/-! ### The bound of the queue -/

/-- No text is short enough to pass the checks. -/
private theorem load_eq_zero (short : cfg.settings.maxTextLength < 0) (e : Event) :
    load cfg e = 0 := by
  have long : ∀ text : String, cfg.settings.maxTextLength < text.length := fun text =>
    lt_of_lt_of_le short (Int.natCast_nonneg _)
  have single : ∀ speakers body, ∃ exc, resolveTts cfg.settings speakers body = .error exc := by
    intro speakers body
    cases language : checkLanguage body.language with
    | error exc => exact ⟨exc, by simp [resolveTts, language, error_bind]⟩
    | ok _ =>
      simp [resolveTts, language, ok_bind, throw_bind, long]
  cases e with
  | submitTts body speakers =>
    obtain ⟨exc, failed⟩ := single speakers body
    simp only [load, failed]
  | runSynthesis body speakers =>
    obtain ⟨exc, failed⟩ := single speakers body
    simp only [load, failed]
  | streamTts params speakers =>
    have failed : ∃ exc, resolveStream cfg.settings speakers params = .error exc := by
      simp [resolveStream, throw_bind, long]
    obtain ⟨exc, failed⟩ := failed
    simp only [load, failed]
  | submitBatch items speakers =>
    have failed : ∃ exc, resolveBatch cfg.settings speakers items = .error exc := by
      unfold resolveBatch
      split_ifs with few many
      · exact ⟨_, rfl⟩
      · exact ⟨_, rfl⟩
      · cases items with
        | nil => exact absurd Nat.zero_lt_one few
        | cons item items =>
          exact ⟨_, by simp only [resolveItems, resolveBatchItem, throw_bind, if_pos (long _)]; rfl⟩
    obtain ⟨exc, failed⟩ := failed
    simp only [load, failed]
  | _ => rfl

private theorem queue_eq_nil (short : cfg.settings.maxTextLength < 0)
    (h : Reach (server cfg) anyStep tr s) : s.queue = [] := by
  have quiet : accepted tr = [] := by
    induction h with
    | refl => rfl
    | @tail t u tr o e before meets taken ih =>
      rw [accepted, List.filterMap_append]
      refine List.append_eq_nil_iff.mpr ⟨ih, ?_⟩
      cases submission : e.submits with
      | true =>
        exact (submission_outcome (bounded (visit_of_reach before)) taken submission).silent
          (load_eq_zero short e)
      | false =>
        refine List.filterMap_eq_nil_iff.mpr fun x told => ?_
        cases x with
        | accepted item =>
          rw [submits_of_enqueues taken ⟨item, .inl told⟩] at submission
          cases submission
        | _ => rfl
  have all := flow (visit_of_reach h)
  rw [quiet] at all
  exact (List.append_eq_nil_iff.mp (List.append_eq_nil_iff.mp all.symm).2).2

def sayNothing : TtsRequest := { text := "", speaker := .embedding [[0]] [0] }

private theorem sayNothing_queued (unbounded : cfg.settings.maxQueueSize = 0)
    (room : 0 ≤ cfg.settings.maxTextLength) : ∃ s' o,
      step cfg (State.init cfg) (.submitTts sayNothing noSpeakers "a" false) = some (s', o) ∧
        s'.queue.length = 1 := by
  have free : (State.init cfg).fresh ["a"] = true := by
    simp [State.fresh, State.init, isUuid]
  have valid : ∃ r, resolveTts cfg.settings noSpeakers sayNothing = .ok r := by
    have short : ¬ cfg.settings.maxTextLength < 0 := Int.not_lt.mpr room
    simp [resolveTts, sayNothing, checkLanguage, resolveSpeaker, gptArray, bind, Except.bind, pure,
      Except.pure, short]
  obtain ⟨r, valid⟩ := valid
  cases one : submitOne cfg (State.init cfg) r "a" false with
  | mk effect result =>
    obtain ⟨s₁, o₁⟩ := effect
    rcases submitOne_cases one with ⟨raised, -⟩ | ⟨-, rfl, rfl, rfl⟩ | ⟨full, -⟩
    · cases raised
    · refine ⟨_, _, by simp only [step, free, submitTts, valid, one, if_true]; rfl, rfl⟩
    · simp [queueFull, unbounded] at full

/-- `MAX_QUEUE_SIZE` bounds the queue exactly when it is positive, or is zero and nothing can be
enqueued at all. -/
private theorem queue_bound_iff : (∀ tr s, Reach (server cfg) anyStep tr s →
      (s.queue.length : Int) ≤ cfg.settings.maxQueueSize) ↔
    1 ≤ cfg.settings.maxQueueSize ∨
      cfg.settings.maxQueueSize = 0 ∧ cfg.settings.maxTextLength < 0 := by
  constructor
  · intro all
    have least : 0 ≤ cfg.settings.maxQueueSize := all [] _ .refl
    by_contra other
    have zero : cfg.settings.maxQueueSize = 0 := by omega
    have room : 0 ≤ cfg.settings.maxTextLength := by omega
    obtain ⟨s', o, taken, one⟩ := sayNothing_queued zero room
    have start : Reach (server cfg) anyStep [] (State.init cfg) := .refl
    have next : (server cfg).step (State.init cfg) (.submitTts sayNothing noSpeakers "a" false) =
      some (s', o) := taken
    have reach := start.tail trivial next
    have most := all ([] ++ o) s' reach
    omega
  · rintro (positive | ⟨zero, short⟩) tr s h
    · exact bounded (visit_of_reach h) positive
    · rw [queue_eq_nil short h, zero]
      rfl

/-- A request is refused only under saturation, in a run and in each next step of it, exactly as
long as no submission overflows the queue while a worker is idle; and the queue is bounded by
`MAX_QUEUE_SIZE` exactly if that is positive, or zero and nothing can be enqueued. -/
theorem refused_when_saturated_iff (h : Reach (server cfg) anyStep tr s) :
    (Reach (server cfg) (refusesSaturated cfg) tr s ↔
        Reach (server cfg) (fun s e => ¬ overflowsIdle cfg s e) tr s) ∧
      (∀ e s' o, step cfg s e = some (s', o) →
        (refusesSaturated cfg s e ↔ ¬ overflowsIdle cfg s e)) ∧
      ((∀ tr s, Reach (server cfg) anyStep tr s →
          (s.queue.length : Int) ≤ cfg.settings.maxQueueSize) ↔
        1 ≤ cfg.settings.maxQueueSize ∨
          cfg.settings.maxQueueSize = 0 ∧ cfg.settings.maxTextLength < 0) := by
  have any : ∀ {P : State → Event → Prop} {tr s}, Reach (server cfg) P tr s →
      Visit cfg anyStep tr s := fun reach => visit_of_reach (reach.mono fun _ _ _ => trivial)
  refine ⟨⟨?_, ?_⟩, fun e s' o taken => refusesSaturated_iff (visit_of_reach h) taken,
    queue_bound_iff⟩
  · exact Run.mono_of_step fun _ _ _ _ _ reach taken => (refusesSaturated_iff (any reach) taken).mp
  · exact Run.mono_of_step fun _ _ _ _ _ reach taken => (refusesSaturated_iff (any reach) taken).mpr

theorem refused_when_saturated_iff_one_job :
    (Reach (server oneWorker) (refusesSaturated oneWorker)
          ((runOf oneWorker oneJob).get oneJob_runs).2
            ((runOf oneWorker oneJob).get oneJob_runs).1 ↔
        Reach (server oneWorker) (fun s e => ¬ overflowsIdle oneWorker s e)
          ((runOf oneWorker oneJob).get oneJob_runs).2
          ((runOf oneWorker oneJob).get oneJob_runs).1) ∧
      (∀ e s' o, step oneWorker ((runOf oneWorker oneJob).get oneJob_runs).1 e = some (s', o) →
        (refusesSaturated oneWorker ((runOf oneWorker oneJob).get oneJob_runs).1 e ↔
          ¬ overflowsIdle oneWorker ((runOf oneWorker oneJob).get oneJob_runs).1 e)) ∧
      ((∀ tr s, Reach (server oneWorker) anyStep tr s →
          (s.queue.length : Int) ≤ oneWorker.settings.maxQueueSize) ↔
        1 ≤ oneWorker.settings.maxQueueSize ∨
          oneWorker.settings.maxQueueSize = 0 ∧ oneWorker.settings.maxTextLength < 0) :=
  refused_when_saturated_iff (reach_of_exec oneJob_runs)

/-- A batch of two is refused by an idle server with room for one request. -/
theorem refused_while_idle : ¬ ∀ cfg tr s, Reach (server cfg) anyStep tr s →
    (∀ e, refusesSaturated cfg s e) ∧ (s.queue.length : Int) ≤ cfg.settings.maxQueueSize := by
  intro all
  have fair := (all oneSlot [] _ .refl).1
    (.submitBatch [sayHello, sayHello] noSpeakers ["a", "b"] none)
  have taken : (step oneSlot (State.init oneSlot)
      (.submitBatch [sayHello, sayHello] noSpeakers ["a", "b"] none)).isSome = true := by
    decide +kernel
  have tooMany : overflows oneSlot (State.init oneSlot)
      (.submitBatch [sayHello, sayHello] noSpeakers ["a", "b"] none) = true ∧
      ¬ AllBusy (State.init oneSlot) := by decide +kernel
  exact (refusesSaturated_iff .refl (Option.some_get taken).symm).mp fair tooMany

end XttsServer.Guarantees
