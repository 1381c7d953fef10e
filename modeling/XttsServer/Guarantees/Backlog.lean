import Mathlib.Data.List.Perm.Subperm
import XttsServer.Guarantees.Slots
import XttsServer.Runs.Delivery

/-!
The counter of a worker against the requests that its process still has to
handle, and the ways to give a slot back too early.
-/

set_option autoImplicit false
set_option relaxedAutoImplicit false

namespace XttsServer.Guarantees

open XttsServer.Model XttsServer.Foundations.Transition XttsServer.Foundations.Ledger

variable {cfg : Config} {P : State → Event → Prop} {s s' s₀ : State} {e : Event}
  {tr o : List Obs}

/-! ### Giving up -/

/-- The request and worker whose slot the step gives back without the last reply: after a
timeout or an exception of the `get`, on a send that fails, or on a cancellation. -/
def givesUp (s : State) : Event → Option (Request × WorkerRef)
  | .resume j =>
      match s.tasks j with
      | some (.collector w r _ _ (.got _ .empty)) => some (r, w)
      | some (.collector w r _ _ (.got _ (.error _))) => some (r, w)
      | some (.stream r (.got w (.error _))) => some (r, w)
      | some (.clone w r (.got .empty)) => some (r, w)
      | some (.clone w r (.got (.error _))) => some (r, w)
      | _ => none
  | .sent j =>
      match s.tasks j with
      | some (.stream r (.closing w (.timedOut _))) => some (r, w)
      | _ => none
  | .sendFails j _ =>
      match s.tasks j with
      | some (.stream r (.sending w _)) => some (r, w)
      | some (.stream r (.closing w (.timedOut _))) => some (r, w)
      | _ => none
  | .cancelStream j =>
      match s.tasks j with
      | some (.stream r (.getting w _)) => some (r, w)
      | some (.stream _ (.got _ (.item (.streamEnd _)))) => none
      | some (.stream r (.got w _)) => some (r, w)
      | some (.stream r (.sending w _)) => some (r, w)
      | some (.stream r (.closing w (.timedOut _))) => some (r, w)
      | _ => none
  | _ => none

/-- The step gives up on a request that its worker has not finished. -/
def givesUpEarly (s : State) (e : Event) : Bool :=
  match givesUp s e with
  | some (r, w) => r ∈ (s.processes w).backlog
  | none => false

private theorem released_cause (before : Visit cfg P tr s) (change : Change cfg s₀ e s s' o)
    {j : JobId} {i : WorkerRef} (told : .released j i ∈ o) :
    s = s₀ ∧ s'.processes = s.processes ∧ ∃ t, s.tasks j = some t ∧
      (t.answered = true ∨ ∃ w, t.holds = some w ∧ givesUp s₀ e = some (t.request, w)) := by
  cases change with
  | @collected k w r cb t t0 outcome result workers drain i' next _ _ statuses event task =>
    obtain rfl : j = r.jobId := by
      cases i' <;> simp at told
      exact told.1
    have named : r.jobId = k := ((placed before).serves k _ task).named
    refine ⟨rfl, rfl, _, named ▸ task, ?_⟩
    cases outcome with
    | item m => exact .inl rfl
    | empty | error => exact .inr ⟨w, rfl, by simp [givesUp, event, task, Task.request]⟩
  | @leave k r w pc next frame workers drain i' task left =>
    obtain rfl : j = k := by
      cases i' <;> cases frame <;> simp at told
      · exact told.1
      · exact told.1
    refine ⟨rfl, rfl, _, task, ?_⟩
    cases left with
    | raised => exact .inr ⟨w, rfl, by simp [givesUp, task, Task.request]⟩
    | @closed _ how | @closeFails _ how _ _ =>
      cases how with
      | done | failed => exact .inl rfl
      | timedOut => exact .inr ⟨w, rfl, by simp [givesUp, task, Task.request]⟩
    | sendFails | cancelGetting | cancelSending =>
      exact .inr ⟨w, rfl, by simp [givesUp, task, Task.request]⟩
    | @cancelGot _ outcome =>
      cases outcome with
      | item m =>
        cases m with
        | streamEnd => exact .inl rfl
        | _ => exact .inr ⟨w, rfl, by simp [givesUp, task, Task.request]⟩
      | empty | error => exact .inr ⟨w, rfl, by simp [givesUp, task, Task.request]⟩
    | @cancelClosing _ how =>
      cases how with
      | done | failed => exact .inl rfl
      | timedOut => exact .inr ⟨w, rfl, by simp [givesUp, task, Task.request]⟩
  | @cloneDone k w r outcome workers drain i' event task =>
    obtain rfl : j = k := by
      cases i' <;> simp at told
      exact told.1
    refine ⟨rfl, rfl, _, task, ?_⟩
    cases outcome with
    | item m => exact .inl rfl
    | empty | error => exact .inr ⟨w, rfl, by simp [givesUp, event, task, Task.request]⟩
  | jobTurnedAway _ _ told' => rcases told' with rfl | rfl <;> simp at told
  | @answered _ a answer => cases a <;> simp [Obs.isAnswer] at answer told
  | _ => simp [marks_eq_map] at told

private theorem released_gone (patient : givesUpEarly s₀ e = false) (before : Visit cfg P tr s)
    (change : Change cfg s₀ e s s' o) {j : JobId} {i : WorkerRef} (told : .released j i ∈ o)
    {r : Request} {w : WorkerRef} (owned : held s.tasks j = some w)
    (member : r ∈ (s'.processes w).backlog) : r.jobId ≠ j := by
  obtain ⟨rfl, processes, t, task, cause⟩ := released_cause before change told
  rw [processes] at member
  rintro rfl
  have known := dispatched_request before ((handled before).dispatched w r member)
  have serves := (placed before).serves _ t task
  obtain rfl : r = t.role.request := request_of_id before known serves.known serves.named.symm
  rw [t.request_role] at member
  rcases cause with answered | ⟨v, holds, early⟩
  · exact answered_gone before task answered w member
  · obtain rfl : v = w := by simpa [held, task, holds] using owned
    simp [givesUpEarly, early, member] at patient

private theorem backlog_outstanding (noShadow : NoShadow cfg P)
    (patient : ∀ s e, P s e → givesUpEarly s e = false) (h : Visit cfg P tr s) {r : Request}
    {w : WorkerRef} (member : r ∈ (s.processes w).backlog) :
    (r.jobId, w) ∈ outstanding (slotLog tr) := by
  induction h using visit_induction with
  | start => simp [State.init, Process.backlog] at member
  | @change s₀ e s s' tr o before ih meets change =>
    have ledger := books noShadow before
    have owed : (r.jobId, w) ∈ outstanding (slotLog tr) := by
      cases change.work before with
      | same backlog => exact ih (backlog w ▸ member)
      | put ready backlog =>
        rw [backlog] at member
        split_ifs at member with here
        · rcases List.mem_append.mp member with was | new
          · exact ih (here ▸ was)
          · rw [List.mem_singleton.mp new, here]
            exact ledger.owed _ _ (ready.owns before)
        · exact ih member
      | chunk _ _ _ _ processes => exact ih (processes ▸ member)
      | reply current _ _ backlog =>
        rw [backlog] at member
        split_ifs at member with here
        · exact ih (here ▸ current ▸ List.mem_cons_of_mem _ member)
        · exact ih member
    have split : slotLog (tr ++ o) = slotLog tr ++ slotLog o := List.filterMap_append
    rw [split]
    cases change.slots before with
    | same _ log => rwa [log, List.append_nil]
    | takes _ _ log =>
      rw [log, outstanding_take]
      exact List.mem_append_left _ owed
    | drops _ _ log => rwa [log, List.append_nil]
    | @gives j v ms i owned slot log =>
      obtain ⟨rfl, -⟩ := slot.unshadowed (ledger.own j v (.inr owned))
      have told : .released j v ∈ o := mem_given.mp (by simp [log, given])
      rw [log]
      change (r.jobId, w) ∈ outstanding (slotLog tr ++ [Entry.give j v])
      rw [outstanding_give, ledger.sound.mem_outstanding_erase (ledger.owed j v (.inr owned))]
      refine ⟨owed, ?_⟩
      rintro rfl
      obtain rfl := ledger.sound.outstanding_place owed (ledger.owed _ v (.inr owned))
      exact released_gone (patient _ _ meets) before change told owned member rfl

/-! ### The counter bounds the backlog -/

/-- The counter of each worker is at least the number of requests that its process has in its
queue or in execution. -/
def BacklogCounted (s : State) : Prop :=
  ∀ i w, s.workers[i]? = some w → (s.processes i).backlog.length ≤ w.activeRequests

/-- No owner gives up on a request that its worker has not finished, and no dispatch goes to a
worker whose id an earlier worker has. -/
def waitsForWorkers (s : State) (e : Event) : Prop :=
  givesUpEarly s e = false ∧ dispatchesShadowed s e = false

/-- As long as every step meets `waitsForWorkers`, no counter is less than the backlog. -/
theorem backlog_counted (h : Reach (server cfg) waitsForWorkers tr s) : BacklogCounted s := by
  intro i w found
  have noShadow : NoShadow cfg waitsForWorkers := noShadow_of_steps fun _ _ fine => fine.2
  have visit := visit_of_reach h
  have work := handled visit
  have ids : ((s.processes i).backlog.map Request.jobId).Nodup := by
    refine (work.once i).map_on fun r member r' member' same => ?_
    exact request_of_id visit (dispatched_request visit (work.dispatched i r member))
      (dispatched_request visit (work.dispatched i r' member')) same
  have listed : (s.processes i).backlog.map Request.jobId ⊆
      atPlace i (outstanding (slotLog tr)) := by
    intro j member
    obtain ⟨r, there, rfl⟩ := List.mem_map.mp member
    exact mem_atPlace.mpr (backlog_outstanding noShadow (fun _ _ fine => fine.1) visit there)
  calc (s.processes i).backlog.length
      = ((s.processes i).backlog.map Request.jobId).length := (List.length_map _).symm
    _ ≤ (atPlace i (outstanding (slotLog tr))).length := (List.Nodup.subperm ids listed).length_le
    _ = w.activeRequests := ((books noShadow visit).active i w found).symm

instance (s : State) (e : Event) : Decidable (waitsForWorkers s e) :=
  inferInstanceAs (Decidable (_ ∧ _))

private theorem heldJob_waits :
    (exec (server oneWorker) waitsForWorkers (server oneWorker).init heldJob).isSome = true := by
  decide +kernel

theorem backlog_counted_held_job :
    BacklogCounted ((exec (server oneWorker) waitsForWorkers (server oneWorker).init heldJob).get
      heldJob_waits).1 :=
  backlog_counted (reach_of_exec heldJob_waits)

/-- A stream whose client goes away while the worker is still synthesising. -/
def abandonedStream : List Event :=
  [.streamTts { text := "hello", speaker := .embedding [[0]] [0] } noSpeakers "a", .resumeDrain,
    .drainPut, .resumeDrain, .resume "a", .workerTake 0, .workerChunk 0 ⟨[1], [0]⟩, .getReply "a",
    .resume "a", .sendFails "a" true]

private theorem abandonedStream_runs : (runOf oneWorker abandonedStream).isSome = true := by
  decide +kernel

/-- The worker counts as idle while it executes a request that was abandoned. -/
theorem backlog_outlives_count :
    ¬ ∀ cfg tr s, Reach (server cfg) anyStep tr s → BacklogCounted s := by
  intro all
  have counted : BacklogCounted ((runOf oneWorker abandonedStream).get abandonedStream_runs).1 :=
    all oneWorker _ _ (reach_of_exec abandonedStream_runs)
  have idle : (((runOf oneWorker abandonedStream).get abandonedStream_runs).1.workers[0]?.map
      WorkerHandle.activeRequests) = some 0 := by decide +kernel
  have busy :
      (((runOf oneWorker abandonedStream).get abandonedStream_runs).1.processes 0).backlog.length =
        1 := by decide +kernel
  obtain ⟨w, found, zero⟩ := Option.map_eq_some_iff.mp idle
  have bound := counted 0 w found
  rw [busy, zero] at bound
  exact absurd bound (by decide)

end XttsServer.Guarantees
