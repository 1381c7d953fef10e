import XttsServer.Runs.Chores
import XttsServer.Runs.Responses

/-!
The work left for the whole pool: that of the server and its workers, the calls that wait
for a thread or have one, and the `_run_synthesis` calls.
-/

set_option autoImplicit false
set_option relaxedAutoImplicit false

namespace XttsServer.Model

open XttsServer.Foundations XttsServer.Foundations.Transition

variable {cfg : Config} {threads : Nat} {s s' : PoolState threads} {e : PoolEvent}
  {P : PoolState threads → PoolEvent → Prop} {tr o : List PoolObs} {known : Finset Request}
  {n : Nat}

/-! ### The work left -/

/-- A step that neither a client takes nor the clock, and that does not put a chunk. -/
def PoolEvent.busy : PoolEvent → Bool
  | .server e => e.busy
  | .start => true
  | .resumeSpeech _ => true
  | .encode _ _ => true
  | .abandoned _ => true

def SpeechPc.chores : SpeechPc → Nat
  | .awaiting => 5
  | .encoding _ _ => 2
  | .encoded _ _ => 1
  | .ended => 0

def PoolState.speechChores (s : PoolState threads) (j : JobId) : Nat :=
  (s.speech j).elim 0 fun speech => speech.pc.chores

/-- A step of the server counts three times: it may submit a call, which is two steps. -/
def PoolState.work (s : PoolState threads) (known : Finset Request) (n : Nat) : Nat :=
  3 * s.server.chores known n + s.executor.load + ∑ r ∈ known, s.speechChores r.jobId

private theorem speechChores_of_call {j : JobId} {speech : Speech}
    (here : s.speech j = some speech) :
    s.speechChores j = speech.pc.chores := by rw [PoolState.speechChores, here, Option.elim_some]

private theorem speech_known (h : Reach (pooled cfg threads) P tr s) {j : JobId}
    (call : s.speech j ≠ none) :
    ∃ r ∈ requests (serverTrace tr), r.jobId = j := by
  induction h with
  | refl => exact absurd rfl call
  | @tail t u tr o e _ _ taken ih =>
    have old : t.speech j ≠ none → ∃ r ∈ requests (serverTrace (tr ++ o)), r.jobId = j :=
      fun was => by
      obtain ⟨r, member, named⟩ := ih was
      rw [serverTrace_append, requests, List.filterMap_append]
      exact ⟨r, List.mem_append_left _ member, named⟩
    cases poolStep_speech taken j with
    | aside same => exact old (same ▸ call)
    | opened _ _ accepted =>
      obtain ⟨item, member, named⟩ := accepted
      refine ⟨item.request, request_mem_requests (mem_accepted.mpr ?_), named⟩
      rw [serverTrace_append]
      exact List.mem_append_right _ (List.mem_filterMap.mpr ⟨_, member, rfl⟩)
    | failed here | encodes here | encoded here | answered here | raised here =>
      exact old (by simp [here])

/-! ### Steps of the server -/

section Server

variable {server : State} {event : Event} {told : List Obs}

private theorem Event.busy_of_thread {a : State} {c : Call} (thread : event.threadOf a = some c) :
    event.busy = true := by
  cases event <;> first | rfl | cases thread

private theorem Event.busy_plain (busy : event.busy = true) : event.cancelled = none ∧
    ∀ (s : PoolState threads) (o : List Obs), openSpeech cfg s o event = s.speech := by
  cases event <;> first | exact ⟨rfl, fun _ _ => rfl⟩ | cases busy

private theorem mem_broughtIn (obs : Obs) (member : obs ∈ told) : obs.chores ≤ broughtIn told :=
  List.single_le_sum (fun _ _ => Nat.zero_le _) _ (List.mem_map_of_mem member)

private theorem submits_of_not_busy (h : Visit cfg anyStep (serverTrace tr) s.server)
    (taken : step cfg s.server event = some (server, told)) (idle : event.busy = false) {c : Call}
    (submitted : event.submitted server = some c) : 30 ≤ broughtIn told := by
  cases event with
  | computeLatents j wavPath =>
    simp only [step] at taken
    split_ifs at taken with fresh
    have unused : j ∉ s.server.used := by
      simp only [State.fresh, Bool.and_eq_true, decide_eq_true_eq, List.all_eq_true] at fresh
      exact (fresh.2 j List.mem_cons_self).2
    have free : s.server.tasks j = none := by
      by_contra some_task
      obtain ⟨t, task⟩ := Option.ne_none_iff_exists'.mp some_task
      exact unused (request_named h task ▸ (registered h).drawn _ (request_known h task))
    have value := Option.some.inj taken
    simp only [computeLatents] at value
    split at value
    · obtain ⟨rfl, -⟩ := Prod.mk.inj value
      simp [Event.submitted, State.call?, makeQueue, free] at submitted
    · obtain ⟨-, rfl⟩ := Prod.mk.inj value
      exact mem_broughtIn (.dispatched (.computeLatents _) _) List.mem_cons_self
  | resumeDrain | resume | sent => cases idle
  | _ => cases submitted

private theorem sum_openSpeech (ids : ∀ r ∈ known, ∀ r' ∈ known, r.jobId = r'.jobId → r = r')
    {a : PoolState threads} (speech : a.speech = openSpeech cfg s told event) :
    ∑ r ∈ known, a.speechChores r.jobId ≤ ∑ r ∈ known, s.speechChores r.jobId + broughtIn told := by
  unfold openSpeech at speech
  split at speech
  · rename_i body speakers j
    split_ifs at speech with accepts
    · obtain ⟨obs, member, is⟩ := List.any_eq_true.mp accepts
      have brought : 5 ≤ broughtIn told := by
        cases obs with
        | accepted item => exact Nat.le_trans (Nat.le_add_left 5 45) (mem_broughtIn _ member)
        | _ => cases is
      refine Nat.le_trans (sum_le_of_key (k := j) (d := 5) ids fun r _ => ?_)
        (Nat.add_le_add_left brought _)
      split_ifs with here
      · rw [PoolState.speechChores, speech, here, Function.update_self]
        exact Nat.le_add_left _ _
      · rw [PoolState.speechChores, speech, Function.update_of_ne here]
        exact Nat.le_refl _
    · rw [Finset.sum_congr rfl fun r _ => by
        rw [PoolState.speechChores, speech, ← PoolState.speechChores]]
      exact Nat.le_add_right _ _
  · rw [Finset.sum_congr rfl fun r _ => by
      rw [PoolState.speechChores, speech, ← PoolState.speechChores]]
    exact Nat.le_add_right _ _

end Server

/-- A step leaves no more to do than there was and came in, and a busy one leaves less. The requests
counted are those of the whole run. -/
structure LeavesLess (cfg : Config) (all : List PoolObs) (s s' : PoolState threads) (busy : Bool)
    (o : List PoolObs) : Prop where
  less : busy = true → s'.work (requests (serverTrace all)).toFinset (workerCount cfg) <
    s.work (requests (serverTrace all)).toFinset (workerCount cfg)
  paid : s'.work (requests (serverTrace all)).toFinset (workerCount cfg) ≤
    s.work (requests (serverTrace all)).toFinset (workerCount cfg) + 5 * broughtIn (serverTrace o)

private theorem LeavesLess.of_less {all : List PoolObs} {busy : Bool}
    (less : s'.work (requests (serverTrace all)).toFinset (workerCount cfg) <
      s.work (requests (serverTrace all)).toFinset (workerCount cfg)) :
    LeavesLess cfg all s s' busy o :=
  ⟨fun _ => less, Nat.le_add_right_of_le less.le⟩

private theorem serverStep_work {all : List PoolObs} {last : PoolState threads} {event : Event}
    (whole : Reach (pooled cfg threads) anyStep all last)
    (h : Reach (pooled cfg threads) anyStep tr s) (taken : serverStep cfg s event = some (s', o))
    (sub : requests (serverTrace (tr ++ o)) ⊆ requests (serverTrace all)) :
    LeavesLess cfg all s s' event.busy o := by
  have visit := pool_visits h
  have ids := (tracks (pool_visits whole)).ids
  obtain ⟨server, told, calls, stepped, rfl, only, move⟩ := serverStep_moves taken
  have same : serverTrace (told.map .server ++ calls) = told := serverTrace_calls told only
  have chores := step_chores (pool_visits whole) visit trivial stepped
    (by rwa [serverTrace_append, same] at sub)
  -- The event loop takes the step, which adds this much to the load of the executor.
  have goes : ∀ {executor : Executor Call ℚ threads} {l : Nat}, executor.load ≤
      s.executor.load + l → l ≤ 2 → (event.busy = false → l = 0 ∨ 30 ≤ broughtIn told) →
      LeavesLess cfg all s ⟨server, executor, openSpeech cfg s told event⟩ event.busy
        (told.map .server ++ calls) := fun {executor l} load small credit => by
    cases busy : event.busy with
    | true =>
      have less := chores.1 busy
      refine .of_less ?_
      simp only [PoolState.work, PoolState.speechChores, (Event.busy_plain busy).2]
      omega
    | false =>
      have least := chores.2
      have speech := sum_openSpeech (s := s) (a := ⟨server, executor, openSpeech cfg s told event⟩)
        ids rfl
      refine ⟨fun is => absurd is Bool.false_ne_true, ?_⟩
      rw [same]
      simp only [PoolState.work] at speech ⊢
      rcases credit busy with rfl | brought <;> omega
  cases move with
  | inThread thread load =>
    have less := chores.1 (Event.busy_of_thread thread)
    refine .of_less ?_
    simp only [PoolState.work, PoolState.speechChores]
    omega
  | inLoop load => exact goes load (Nat.zero_le _) fun _ => .inl rfl
  | submits submitted load =>
    exact goes load le_rfl fun idle => .inr (submits_of_not_busy visit stepped idle submitted)

/-! ### Steps of the threads and of the calls -/

private theorem work_setSpeech {all : List PoolObs} {last : PoolState threads} {j : JobId}
    {speech next : Speech} {executor : Executor Call ℚ threads} {l : Nat}
    (whole : Reach (pooled cfg threads) anyStep all last)
    (h : Reach (pooled cfg threads) anyStep tr s)
    (sub : requests (serverTrace tr) ⊆ requests (serverTrace all)) (here : s.speech j = some speech)
    (load : executor.load ≤ s.executor.load + l) (less : next.pc.chores + l < speech.pc.chores) :
    LeavesLess cfg all s { s.setSpeech j next with executor } true o := by
  obtain ⟨r, known, rfl⟩ := speech_known h (j := j) (by simp [here])
  have ids := (tracks (pool_visits whole)).ids
  have now : (s.setSpeech r.jobId next).speechChores r.jobId = next.pc.chores :=
    speechChores_of_call ((speech_setSpeech ..).trans (if_pos rfl))
  have member : r ∈ (requests (serverTrace all)).toFinset := List.mem_toFinset.mpr (sub known)
  have moved := sum_of_one (f := fun x => s.speechChores x.jobId)
    (g := fun x => (s.setSpeech r.jobId next).speechChores x.jobId) member fun x there other => by
      have apart : x.jobId ≠ r.jobId := fun same => other (ids x there r member same)
      rw [PoolState.speechChores, speech_setSpeech, if_neg apart, ← PoolState.speechChores]
  simp only [now, speechChores_of_call here] at moved
  refine .of_less ?_
  simp only [PoolState.work, PoolState.speechChores, PoolState.setSpeech] at moved ⊢
  omega

theorem poolStep_work {all : List PoolObs} {last : PoolState threads}
    (whole : Reach (pooled cfg threads) anyStep all last)
    (h : Reach (pooled cfg threads) anyStep tr s) (taken : poolStep cfg s e = some (s', o))
    (sub : requests (serverTrace (tr ++ o)) ⊆ requests (serverTrace all)) :
    LeavesLess cfg all s s' e.busy o := by
  have earlier : requests (serverTrace tr) ⊆ requests (serverTrace all) := by
    refine List.Subset.trans ?_ sub
    rw [serverTrace_append, requests, requests, List.filterMap_append]
    exact List.subset_append_left _ _
  cases e with
  | server event => exact serverStep_work whole h taken sub
  | start =>
    cases poolStep_changes (by trivial) taken with
    | starts started next =>
      subst next
      have less := Executor.load_start started
      refine .of_less ?_
      simp only [PoolState.work, PoolState.speechChores]
      omega
  | resumeSpeech j =>
    simp only [poolStep, resumeSpeech] at taken
    split at taken
    · rename_i fmt language t here
      split at taken
      · cases taken
      · split_ifs at taken <;> obtain ⟨rfl, rfl⟩ := Prod.mk.inj (Option.some.inj taken)
        · exact work_setSpeech whole h earlier here (Nat.le_add_right _ 0)
            (by simp [SpeechPc.chores])
        · exact work_setSpeech whole h earlier here (Executor.load_submit ..)
            (by simp [SpeechPc.chores])
    · rename_i here
      obtain ⟨rfl, rfl⟩ := Prod.mk.inj (Option.some.inj taken)
      exact work_setSpeech whole h earlier here (Nat.le_add_right _ 0) (by simp [SpeechPc.chores])
    · rename_i here
      obtain ⟨rfl, rfl⟩ := Prod.mk.inj (Option.some.inj taken)
      exact work_setSpeech whole h earlier here (Nat.le_add_right _ 0) (by simp [SpeechPc.chores])
    · cases taken
  | encode j raised =>
    cases poolStep_changes (by trivial) taken with
    | encoded here coding _ next =>
      subst next
      exact work_setSpeech whole h earlier here (Nat.le_add_right_of_le (k := 0)
        (Executor.load_finish ..)) (by simp [SpeechPc.chores, coding])
  | abandoned j =>
    cases poolStep_changes (by trivial) taken with
    | abandoned _ _ started next =>
      subst next
      have less := Executor.load_finish_lt (Executor.running_of_started? started)
      refine .of_less ?_
      simp only [PoolState.work, PoolState.speechChores]
      omega

theorem poolStep_requests (h : Reach (pooled cfg threads) anyStep tr s)
    (taken : poolStep cfg s e = some (s', o)) (busy : e.busy = true) :
    requests (serverTrace o) = [] := by
  rcases poolStep_server taken with ⟨event, told, rfl, stepped, same⟩ | ⟨-, silent⟩
  · rw [same]
    exact step_requests (pool_visits h) trivial stepped busy
  · rw [silent]
    rfl

end XttsServer.Model
