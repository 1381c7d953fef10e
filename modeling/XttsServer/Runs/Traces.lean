import XttsServer.Foundations.Ledger
import XttsServer.Model.Splitting

/-!
What a run has observed so far, read off its trace, and what the changes that
give back a slot do to the drain loop.
-/

set_option autoImplicit false
set_option relaxedAutoImplicit false

namespace XttsServer.Model

open XttsServer.Foundations XttsServer.Foundations.Transition

/-! ### Projections of a trace -/

@[simp] def Obs.accepted? : Obs → Option QueuedItem
  | .accepted item => some item
  | _ => none

@[simp] def Obs.drained? : Obs → Option (QueuedItem × WorkerRef)
  | .drained item w => some (item, w)
  | _ => none

/-- The requests that other processes may ever see: accepted ones and latent computations. -/
@[simp] def Obs.request? : Obs → Option Request
  | .accepted item => some item.request
  | .dispatched (.computeLatents r) _ => some (.computeLatents r)
  | _ => none

@[simp] def Obs.queueDispatch? : Obs → Option (Request × WorkerRef)
  | .dispatched (.synthesis r) w => some (.synthesis r, w)
  | .dispatched (.stream r) w => some (.stream r, w)
  | _ => none

@[simp] def Obs.entry? : Obs → Option (Ledger.Entry JobId WorkerRef)
  | .dispatched r w => some (.take r.jobId w)
  | .released j w => some (.give j w)
  | _ => none

@[simp] def Obs.completed? : Obs → Option OnComplete
  | .completed cb _ _ => some cb
  | _ => none

@[simp] def Obs.status? (j : JobId) : Obs → Option JobStatus
  | .created k => if k = j then some .pending else none
  | .marked k status => if k = j then some status else none
  | _ => none

@[simp] def Obs.download? (j : JobId) : Obs → Option Nat
  | .audio g k (.ok _) => if k = j then some g else none
  | _ => none

@[simp] abbrev accepted (tr : List Obs) : List QueuedItem := tr.filterMap Obs.accepted?

@[simp] abbrev drained (tr : List Obs) : List (QueuedItem × WorkerRef) := tr.filterMap Obs.drained?

@[simp] abbrev requests (tr : List Obs) : List Request := tr.filterMap Obs.request?

@[simp] abbrev queueDispatches (tr : List Obs) : List (Request × WorkerRef) :=
  tr.filterMap Obs.queueDispatch?

@[simp] abbrev slotLog (tr : List Obs) :
    List (Ledger.Entry JobId WorkerRef) := tr.filterMap Obs.entry?

@[simp] abbrev completions (tr : List Obs) : List OnComplete := tr.filterMap Obs.completed?

@[simp] abbrev history (tr : List Obs) (j : JobId) : List JobStatus := tr.filterMap (Obs.status? j)

@[simp] abbrev downloadsOf (tr : List Obs) (j : JobId) : List Nat := tr.filterMap (Obs.download? j)

-- Traces grow by lists of known observations, on which the projections compute.
attribute [simp] List.filterMap_cons

theorem marks_eq_map (jobs : JobStore) (j : JobId) (status : JobStatus) :
    marks jobs j status = (if j ∈ jobs.keys then [status] else []).map (.marked j) := by
  unfold marks
  split <;> rfl

/-! ### The drain loop -/

/-- The item that the loop has taken off the queue and not dispatched. -/
def DrainPc.undispatched? : DrainPc → Option QueuedItem
  | .waiting item _ => some item
  | .raised item => some item
  | _ => none

/-- The item that `dispatch` has a worker for and that is not handed over. -/
def DrainPc.dispatching? : DrainPc → Option (QueuedItem × WorkerRef)
  | .putting item w => some (item, w)
  | .put item w => some (item, w)
  | _ => none

def DrainPc.item? : DrainPc → Option QueuedItem
  | .getting => none
  | .waiting item _ => some item
  | .putting item _ => some item
  | .put item _ => some item
  | .raised item => some item

@[simp] theorem DrainPc.undispatched?_notify (pc : DrainPc) :
    pc.notify.undispatched? = pc.undispatched? := by cases pc <;> rfl

@[simp] theorem DrainPc.dispatching?_notify (pc : DrainPc) :
    pc.notify.dispatching? = pc.dispatching? := by cases pc <;> rfl

@[simp] theorem DrainPc.item?_notify (pc : DrainPc) : pc.notify.item? = pc.item? := by
  cases pc <;> rfl

def State.undispatched (s : State) : List QueuedItem := s.drain.undispatched?.toList ++ s.queue

/-- All accepted items that no other task has been told of. -/
def State.items (s : State) : List QueuedItem := s.drain.item?.toList ++ s.queue

theorem State.atHand.undispatched {s : State} {item : QueuedItem} {rest : List QueuedItem}
    (h : s.atHand item rest) : s.undispatched = item :: rest := by
  rcases h with ⟨loop, queue⟩ | ⟨loop, queue⟩ <;>
    simp [State.undispatched, loop, queue, DrainPc.undispatched?]

theorem State.atHand.items {s : State} {item : QueuedItem} {rest : List QueuedItem}
    (h : s.atHand item rest) : s.items = item :: rest := by
  rcases h with ⟨loop, queue⟩ | ⟨loop, queue⟩ <;>
    simp [State.items, loop, queue, DrainPc.item?]

theorem State.atHand.dispatching? {s : State} {item : QueuedItem} {rest : List QueuedItem}
    (h : s.atHand item rest) : s.drain.dispatching? = none := by
  rcases h with ⟨loop, _⟩ | ⟨loop, _⟩ <;> simp [loop, DrainPc.dispatching?]

section Releases

variable {s : State} {w : WorkerRef} {ms : ℚ} {j : JobId} {workers : List WorkerHandle}
  {drain : DrainPc} {i : Option WorkerRef}

/-- A release does nothing for want of an id, or updates the first handle with the id of its
worker and wakes the drain loop. -/
theorem State.releases.cases (h : s.releases w ms j workers drain i) :
    ((∀ handle, s.workers[w]? = some handle → handle.workerId = "") ∧ workers = s.workers ∧
      drain = s.drain ∧ i = none) ∨
    ∃ handle, s.workers[w]? = some handle ∧ handle.workerId ≠ "" ∧
      workers = release s.workers handle.workerId ms j ∧ drain = s.drain.notify ∧
      i = releaseTarget s.workers handle.workerId := by
  have obs_inj : ∀ a b : Option WorkerRef,
      a.toList.map (Obs.released j) = b.toList.map (Obs.released j) → a = b := by
    rintro (_ | a) (_ | b) same <;> simp_all
  have handles := congrArg (fun effect => effect.1.workers) h.eq
  have loop := congrArg (fun effect => effect.1.drain) h.eq
  have told := congrArg Prod.snd h.eq
  unfold releaseSlot at handles loop told
  cases found : s.workers[w]? with
  | none =>
    simp only [found] at handles loop told
    exact .inl ⟨by simp, handles.symm, loop.symm, (obs_inj none i told).symm⟩
  | some handle =>
    by_cases unnamed : handle.workerId = ""
    · simp only [found, unnamed, if_true] at handles loop told
      exact .inl ⟨by simpa using unnamed, handles.symm, loop.symm, (obs_inj none i told).symm⟩
    · simp only [found, unnamed, if_false] at handles loop told
      refine .inr ⟨handle, rfl, unnamed, handles.symm, loop.symm, (obs_inj _ i ?_).symm⟩
      rw [← told]
      cases releaseTarget s.workers handle.workerId <;> rfl

theorem State.releases.drain_eq (h : s.releases w ms j workers drain i) :
    drain = s.drain ∨ drain = s.drain.notify := by
  rcases h.cases with ⟨-, -, same, -⟩ | ⟨_, -, -, -, woken, -⟩
  · exact .inl same
  · exact .inr woken

theorem State.releases.undispatched? (h : s.releases w ms j workers drain i) :
    drain.undispatched? = s.drain.undispatched? := by
  rcases h.drain_eq with rfl | rfl <;> simp

theorem State.releases.dispatching? (h : s.releases w ms j workers drain i) :
    drain.dispatching? = s.drain.dispatching? := by
  rcases h.drain_eq with rfl | rfl <;> simp

theorem State.releases.item? (h : s.releases w ms j workers drain i) :
    drain.item? = s.drain.item? := by
  rcases h.drain_eq with rfl | rfl <;> simp

theorem State.releases.drain_of (h : s.releases w ms j workers drain i) {pc : DrainPc}
    (active : ∀ item notified, pc ≠ .waiting item notified) (there : drain = pc) :
    s.drain = pc := by
  rcases h.drain_eq with rfl | rfl
  · exact there
  · cases loop : s.drain with
    | waiting item notified =>
      rw [loop] at there
      exact absurd there.symm (active item true)
    | _ => rwa [loop] at there

end Releases

end XttsServer.Model
