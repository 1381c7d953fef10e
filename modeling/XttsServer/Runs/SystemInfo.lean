import XttsServer.Model.SystemInfo
import XttsServer.Runs.Records
import XttsServer.Runs.Station

/-!
The clock readings that the worker statistics are computed from: no request was
dispatched in the future, and no more time was added up than has passed.
-/

set_option autoImplicit false
set_option relaxedAutoImplicit false

namespace XttsServer.Model

open XttsServer.Foundations XttsServer.Foundations.Transition

variable {cfg : Config} {P : State → Event → Prop} {s s' s₀ : State} {e : Event}
  {tr o : List Obs}

/-! ### One handle -/

structure WorkerHandle.Clocked (now : ℚ) (w : WorkerHandle) : Prop where
  started : ∀ j t, w.activeJobs.get? j = some t → 0 ≤ t ∧ t ≤ now
  nonneg : 0 ≤ w.totalSynthesisMs
  within : w.totalSynthesisMs ≤ w.totalRequests * (now * 1000)

namespace WorkerHandle.Clocked

variable {now now' ms : ℚ} {w : WorkerHandle}

private theorem later (h : w.Clocked now) (forward : now ≤ now') : w.Clocked now' where
  started j t found := ⟨(h.started j t found).1, (h.started j t found).2.trans forward⟩
  nonneg := h.nonneg
  within := h.within.trans (by gcongr)

private theorem acquire (h : w.Clocked now) (past : 0 ≤ now) (j : JobId) :
    (w.acquire j now).Clocked now where
  started k t found := by
    rw [WorkerHandle.acquire, Dict.get?_set] at found
    split_ifs at found
    · obtain rfl := Option.some.inj found
      exact ⟨past, le_refl _⟩
    · exact h.started k t found
  nonneg := h.nonneg
  within := h.within

private theorem release (h : w.Clocked now) (some_time : 0 ≤ ms) (most : ms ≤ now * 1000)
    (j : JobId) : (w.release ms j).Clocked now where
  started k t found := by
    unfold WorkerHandle.release at found
    dsimp only at found
    split_ifs at found
    · rw [Dict.get?_erase] at found
      split_ifs at found
      exact h.started k t found
    · exact h.started k t found
  nonneg := add_nonneg h.nonneg some_time
  within := by
    have total := add_le_add h.within most
    simp only [WorkerHandle.release]
    push_cast
    linarith

end WorkerHandle.Clocked

/-! ### All handles -/

/-- What a change does to the handles: nothing, a dispatch now, or a release of no time or of the
time since a collector began to wait. -/
inductive HandleChange (s s' : State) : Prop
  | same (workers : s'.workers = s.workers)
  | acquires {w : WorkerRef} {j : JobId}
      (workers : s'.workers = s.workers.modify w fun handle => handle.acquire j s.now)
  | releases {w : WorkerRef} {j : JobId} {ms : ℚ} {i : Option WorkerRef}
      (slot : s.releases w ms j s'.workers s'.drain i)
      (time : ms = 0 ∨ ∃ k t0, s.since k = some t0 ∧ ms = (s.now - t0) * 1000)

private theorem Change.handles (change : Change cfg s₀ e s s' o) : HandleChange s s' := by
  cases change with
  | cloneStart | drainDispatches => exact .acquires rfl
  | collected _ task _ slot => exact .releases slot (.inr ⟨_, _, since_of_task task, rfl⟩)
  | leave _ _ slot | cloneDone _ _ slot => exact .releases slot (.inl rfl)
  | _ => exact .same rfl

theorem waits_past (h : Visit cfg P tr s) :
    0 ≤ s.now ∧ ∀ j t0, s.since j = some t0 → 0 ≤ t0 ∧ t0 ≤ s.now := by
  induction h using visit_induction with
  | start => exact ⟨le_refl _, by simp [State.since, State.init]⟩
  | change before ih _ change =>
    have forward := change.forward
    refine ⟨ih.1.trans forward, fun j t0 waits => ?_⟩
    rcases change.since before waits with waited | rfl
    · exact ⟨(ih.2 j t0 waited).1, (ih.2 j t0 waited).2.trans forward⟩
    · exact ⟨ih.1, forward⟩

private theorem clocked_modify {workers : List WorkerHandle} {now : ℚ} {i : WorkerRef}
    {g : WorkerHandle → WorkerHandle} (all : ∀ w ∈ workers, w.Clocked now)
    (kept : ∀ w, w.Clocked now → (g w).Clocked now) : ∀ w ∈ workers.modify i g, w.Clocked now := by
  intro w member
  obtain ⟨n, found⟩ := List.getElem?_of_mem member
  obtain ⟨old, there, rfl⟩ := getElem?_modify_some found
  have was := all old (List.mem_of_getElem? there)
  split_ifs
  · exact kept old was
  · exact was

private theorem clocked_start {cudaOk : Bool} {counts : List Nat} {w : WorkerHandle}
    (h : w ∈ start cudaOk counts) : w.Clocked 0 := by
  obtain ⟨⟨count, gpuIndex⟩, -, member⟩ := List.mem_flatMap.mp h
  obtain ⟨slot, -, rfl⟩ := List.mem_map.mp member
  refine ⟨fun j t found => ?_, le_refl _, by simp⟩
  cases found

theorem handles_clocked (h : Visit cfg P tr s) : ∀ w ∈ s.workers, w.Clocked s.now := by
  induction h using visit_induction with
  | start => exact fun w member => clocked_start member
  | @change s₀ e s s' tr o before ih _ change =>
    obtain ⟨past, waits⟩ := waits_past before
    have kept : ∀ w ∈ s'.workers, w.Clocked s.now := by
      cases change.handles with
      | same workers => exact workers ▸ ih
      | acquires workers =>
        rw [workers]
        exact clocked_modify ih fun w was => was.acquire past _
      | @releases w j ms i slot time =>
        have bounds : 0 ≤ ms ∧ ms ≤ s.now * 1000 := by
          rcases time with rfl | ⟨k, t0, waited, rfl⟩
          · exact ⟨le_refl _, by positivity⟩
          · obtain ⟨first, last⟩ := waits k t0 waited
            exact ⟨by linarith, by linarith⟩
        rcases slot.cases with ⟨-, same, -⟩ | ⟨handle, -, -, workers, -⟩
        · exact same ▸ ih
        · rw [workers, release]
          split
          · exact clocked_modify ih fun w was => was.release bounds.1 bounds.2 j
          · exact ih
    exact fun w member => (kept w member).later change.forward

end XttsServer.Model
